import Xdna.SmuHistory
import Xdna.Batch

/-!
# The SRAM as the guest sees it

The mailbox writes the rings and nothing else; only the PSP writes the info block and the liveness
word. Outside these regions the SRAM is plain memory. And a driver that finds the
liveness word nonzero finds a live firmware and the whole info block, in every run
of guests that leave the two alone.
-/

namespace Xdna

open ByteMemory Relation

/-! ## What the device writes -/

/-- The address lies in the region. -/
def Region.Contains (r : Region) (a : ℕ) : Prop := r.base ≤ a ∧ a < r.base + r.len

/-- The address lies in a ring. -/
def InRings (a : ℕ) : Prop := ∃ c, x2iBase c ≤ a ∧ a < i2xBase c + ringSize c

private theorem InRings.contains {a : ℕ} (h : InRings a) : ∃ r : Region, r.Contains a := by
  obtain ⟨c, hlo, hhi⟩ := h
  by_cases ha : a < i2xBase c
  · exact ⟨.x2i c, hlo, ha⟩
  · exact ⟨.i2x c, by simpa [Region.base] using ha, hhi⟩

/-- The info block and the liveness word lie outside the rings. -/
theorem not_inRings {a : ℕ} (h : Region.info.Contains a ∨ Region.fwAlive.Contains a) :
    ¬ InRings a := by
  rintro ⟨c, hlo, hhi⟩
  have hbounds : ∀ c : ChanIdx, 0x20040 ≤ x2iBase c ∧ i2xBase c + ringSize c ≤ 0x3F000 := by decide
  have := hbounds c
  simp only [Region.Contains, Region.base, Region.len] at h
  omega

section Sends

variable {host : Host} {m : Machine} {c : ChanIdx} {id opcode : UInt32} {payload : List UInt8}

private theorem markedSram_outside {npu : Npu} {base size n a : ℕ}
    (hroom : (npu.chan c).i2xTail.toNat + 4 ≤ size) (ha : a < base ∨ base + size ≤ a) :
    markedSram npu c base size n a = npu.sram a := by
  unfold markedSram
  split
  · apply Memory.write_of_outside
    rw [tombstoneBytes_length]
    omega
  · rfl

/-- A send on a channel whose head and tail are in order leaves the memory around the ring alone. -/
theorem TailOk.send_sram (h : TailOk c (m.npu.chan c)) (hactive : (m.npu.chan c).active = true)
    (hsize : payload.length = (respSizeFor opcode).1) {a : ℕ}
    (ha : a < i2xBase c ∨ i2xBase c + ringSize c ≤ a) :
    (mboxSend host m c id opcode payload).1.npu.sram a = m.npu.sram a := by
  obtain ⟨hmod, hle⟩ := respSizeFor_bounds opcode
  obtain ⟨hring, hlarge, _⟩ := replyRing_bounds c
  rw [← hsize] at hmod hle
  have hroom := h.room
  have hreply := h.ring.replyRing hactive hroom
  have hlen : 16 + payload.length ≤ ringSize c - 4 := by omega
  cases hfull : (m.npu.chan c).sendFull (pkgSize payload) with
  | true =>
    rw [mboxSend_full host id opcode hreply hlen hfull]
    exact markedSram_outside hroom ha
  | false =>
    obtain ⟨_, hend⟩ := hreply.start_fits hlen (h.not_overruns _) hring h.aligned hmod hfull
    rw [mboxSend_sent host id opcode hreply hlen hfull (by omega)]
    dsimp only
    rw [countIrq_sram, sentNpu]
    dsimp only
    rw [Memory.write_of_outside, markedSram_outside hroom ha]
    rw [Frame.encode_length, replyFrame]
    dsimp only
    omega

end Sends

/-- What the driver reads of the firmware without the mailbox. -/
structure Shared where
  sram : Memory
  fwAlive : Bool
  pwaitmode : UInt32

/-- This part of the state of the device. -/
def Npu.shared (npu : Npu) : Shared := ⟨npu.sram, npu.fwAlive, npu.pwaitmode⟩

/-- What the mailbox leaves alone. -/
structure MailboxFrame (v v' : Shared) : Prop where
  sram : ∀ a, ¬ InRings a → v'.sram a = v.sram a
  fwAlive : v'.fwAlive = v.fwAlive
  pwaitmode : v'.pwaitmode = v.pwaitmode

namespace MailboxFrame

variable {v v' v'' : Shared}

/-- Nothing has changed. -/
theorem refl (v : Shared) : MailboxFrame v v := ⟨fun _ _ => rfl, rfl, rfl⟩

private theorem trans (h : MailboxFrame v v') (h' : MailboxFrame v' v'') : MailboxFrame v v'' :=
  ⟨fun a ha => (h'.sram a ha).trans (h.sram a ha), h'.fwAlive.trans h.fwAlive,
    h'.pwaitmode.trans h.pwaitmode⟩

end MailboxFrame

private theorem MsgEffect.mailboxFrame {npu npu' : Npu} {hdr : MsgHeader} {p : Memory}
    (h : MsgEffect npu hdr p npu') : MailboxFrame npu.shared npu'.shared := by
  cases h with
  | create s =>
    rw [createContext_eq]
    refine ⟨fun a ha => Memory.clear_of_outside ?_, rfl, rfl⟩
    rw [(ctxRbBase_toNat s).2, (ctxRbBase_toNat s).1]
    by_contra hin
    exact ha ⟨slotChan s, by omega, by omega⟩
  | destroy s =>
    rw [destroyContext_eq]
    exact ⟨fun _ _ => rfl, rfl, rfl⟩
  | _ => exact ⟨fun _ _ => rfl, rfl, rfl⟩

section Accesses

variable (host : Host)

private theorem answerWith_mailboxFrame {c : ChanIdx} {hdr : MsgHeader}
    {r : Machine × Option Answer} (hr : Steps host WithinRing initial r.1)
    (hshape : ∀ a, r.2 = some a → Answer.WellShaped hdr.opcode a) :
    MailboxFrame r.1.npu.shared (answerWith host c hdr r).npu.shared := by
  have hrest := (answerWith_change host c hdr r).rest
  refine ⟨fun a ha => ?_, by rw [hrest]; rfl, by rw [hrest]; rfl⟩
  change (answerWith host c hdr r).npu.sram a = r.1.npu.sram a
  unfold answerWith
  cases hans : r.2 with
  | none => rfl
  | some ans =>
    by_cases hactive : (r.1.npu.chan c).active = true
    · refine ((tailsOk_of_steps hr).2 c hactive).send_sram hactive (hshape ans hans).1 ?_
      by_contra hin
      have hbase : i2xBase c = x2iBase c + ringSize c := rfl
      exact ha ⟨c, by omega, by omega⟩
    · change (mboxSend host r.1 c hdr.id hdr.opcode ans.2).1.npu.sram a = _
      rw [mboxSend_inactive _ _ _ _ _ _ (by simpa using hactive)]
      rfl

private theorem mailboxFrame_kept :
    KeptByMbox host WithinRing fun m m' => MailboxFrame m.npu.shared m'.npu.shared where
  refl _ := .refl _
  trans := .trans
  guest _ := ⟨fun _ _ => rfl, rfl, rfl⟩
  pass {m c} hm hactive := by
    have hform := mboxPass_form host hm.consistent hm.headsOk hactive
    generalize (mboxPass host c m).1 = m' at hform ⊢
    cases hform with
    | search _ hnpu _ =>
      rcases hnpu with hnpu | hnpu <;> rw [hnpu]
      · exact .refl _
      · exact ⟨fun _ _ => rfl, rfl, rfl⟩
    | message size hpeek =>
      have htaken : MailboxFrame m.npu.shared (takenFrame m c size).npu.shared := .refl _
      have hsteps : Steps host WithinRing initial (headOutcome host m c size).1 := by
        have hin : ¬ (m.npu.chan c).x2iSize ≤ (m.npu.chan c).x2iHead := by
          rw [← peek_ringEnd_iff m.npu, hpeek]
          simp
        refine (((hm.steps consistent_npuReset).tail (.examine m c hactive hin)).tail
          (.take _ c size hactive hpeek)).tail (.message _ _ _ (hm.fwAlive hactive))
      exact (htaken.trans (mertOutcome_effect ..).mailboxFrame).trans
        (answerWith_mailboxFrame host hsteps fun _ => mertOutcome_wellShaped)

/-! ## Single accesses -/

/-- What a register access does to the shared state around the rings. -/
inductive WordEffect (w : UInt32 × UInt32) (v : Shared) : Shared → Prop
  | frame {v' : Shared} (h : MailboxFrame v v') : WordEffect w v v'
  | wait (val : UInt32) (hoff : w.1 = regPwaitmode) : WordEffect w v { v with pwaitmode := val }
  | boot : WordEffect w v ⟨bootSram v.sram, true, v.pwaitmode ||| 1⟩
  | shutdown : WordEffect w v
      ⟨v.sram.write sramFwAliveOff.toNat (le32 0), false, v.pwaitmode &&& ~~~1⟩

private theorem PspResult.wordEffect {m : Machine} {r : Machine × UInt32} (h : PspResult m r)
    (w : UInt32 × UInt32) : WordEffect w m.npu.shared r.1.npu.shared := by
  cases h with
  | failed _ hnpu _ _ =>
    dsimp only
    rw [hnpu]
    exact .frame (.refl _)
  | cert _ hnpu =>
    dsimp only
    rw [hnpu]
    exact .frame (.refl _)
  | validated _ hnpu =>
    dsimp only
    rw [hnpu]
    exact .frame (.refl _)
  | started _ _ hnpu =>
    dsimp only
    rw [hnpu, fwBoot_eq]
    exact .boot
  | released _ hnpu =>
    dsimp only
    rw [hnpu, fwShutdown_eq]
    exact .shutdown

private theorem smuKick_shared (npu : Npu) : (smuKick npu).shared = npu.shared := by
  rw [smuKick_eq npu (k := ⟨npu.scratch 5, npu.scratch 7⟩) rfl rfl]
  rfl

private theorem accessStep_wordEffect {m : Machine} (hm : Visited host WithinRing m) {bar : Int}
    {w : UInt32 × UInt32} (hok : ∀ p, headWrite? bar w = some p → WithinRing p.1 p.2) :
    WordEffect w m.npu.shared (accessStep host m (.word bar w)).npu.shared := by
  obtain ⟨off, val⟩ := w
  rw [accessStep, regWrite]
  split
  · have hkind := regBarWrite_kind host m off val
    generalize regBarWrite host m off val = m' at hkind ⊢
    cases hkind with
    | psp =>
      rw [pspKick_eq]
      exact (pspCommand_result host (countPsp (m.modify fun npu =>
        { npu with secIntr := pspNotifyVal }))).wordEffect _
    | smu =>
      rw [Machine.modify_npu, smuKick_shared]
      exact .frame (.refl _)
    | plain _ _ hf =>
      cases hf with
      | pwaitmode hoff => exact .wait val hoff
      | _ => exact .frame (.refl _)
  · split
    · exact .frame ((mailboxFrame_kept host).mboxRegWrite hm fun c v hw => by
        rename_i hbar
        exact hok (c, v) (by rw [hbar]; exact hw))
    · exact .frame (.refl _)

end Accesses

/-! ## Plain memory -/

/-- What an access makes of plain memory of the size of the SRAM. -/
def plainWrite (mem : Memory) : Access → Memory
  | .sram off bytes =>
    if barSramSize < off.toNat + bytes.length then mem else mem.write off.toNat bytes
  | .word .. => mem

/-- The SRAM if only the guest wrote to it. -/
def plainSram (as : List Access) : Memory := as.foldl plainWrite fun _ => 0

private theorem bootSram_outside {sram : Memory} {a : ℕ} (h : ∀ r : Region, ¬ r.Contains a) :
    bootSram sram a = sram a := by
  have hinfo := h .info
  have halive := h .fwAlive
  have hx2i := h (.x2i 0)
  have hi2x := h (.i2x 0)
  simp only [Region.Contains, Region.base, Region.len] at hinfo halive hx2i hi2x
  have hbases : x2iBase 0 = mgmtChannel.x2iBuf.toNat ∧ i2xBase 0 = mgmtChannel.i2xBuf.toNat ∧
      ringSize 0 = mgmtChannel.x2iSize.toNat ∧ ringSize 0 = mgmtChannel.i2xSize.toNat := by decide
  have hword : sramFwAliveOff.toNat = 0x3F000 := rfl
  have hblock : sramMgmtInfoOff.toNat = 0x20000 := rfl
  rw [bootSram, Memory.write_of_outside (by rw [le32_length]; omega),
    Memory.write_of_outside (by rw [mgmtInfo_encode_length]; omega),
    Memory.clear_of_outside (by omega), Memory.clear_of_outside (by omega)]

private theorem WordEffect.sram {w : UInt32 × UInt32} {v v' : Shared} (h : WordEffect w v v')
    {a : ℕ} (ha : ∀ r : Region, ¬ r.Contains a) : v'.sram a = v.sram a := by
  cases h with
  | frame h =>
    refine h.sram a fun hin => ?_
    obtain ⟨r, hr⟩ := hin.contains
    exact ha r hr
  | wait => rfl
  | boot => exact bootSram_outside ha
  | shutdown =>
    have halive := ha .fwAlive
    simp only [Region.Contains, Region.base, Region.len] at halive
    have hword : sramFwAliveOff.toNat = 0x3F000 := rfl
    exact Memory.write_of_outside (by rw [le32_length]; omega)

private theorem accessRun_plain (host : Host) {as : List Access} (h : ∀ a ∈ as, a.HeadOk WithinRing)
    {a : ℕ} (ha : ∀ r : Region, ¬ r.Contains a) :
    (accessRun host as).npu.sram a = plainSram as a := by
  induction as using List.reverseRecOn with
  | nil => rfl
  | append_singleton as x ih =>
    have has : ∀ a ∈ as, a.HeadOk WithinRing := fun a ha => h a (by simp [ha])
    have hx := h x (by simp)
    rw [accessRun_append, plainSram, List.foldl_append]
    cases x with
    | word bar w =>
      exact ((accessStep_wordEffect host (accessRun_visited has) hx).sram ha).trans (ih has)
    | sram off bytes =>
      rw [accessStep, mmioWriteBuf, if_pos rfl, List.foldl_cons, List.foldl_nil, plainWrite]
      split
      · exact ih has
      · rw [Machine.modify_npu, Npu.sramCopy_eq (by omega)]
        exact Memory.write_congr (ih has) ..

/-- Around the regions of the device the guest reads what it has written last. -/
theorem guestRun_plain (host : Host) {ops : List GuestOp} (h : ∀ op ∈ ops, op.HeadsOk WithinRing)
    {off : UInt32} {len : ℕ} (hin : off.toNat + len ≤ barSramSize)
    (hout : ∀ a, off.toNat ≤ a → a < off.toNat + len → ∀ r : Region, ¬ r.Contains a) :
    mmioReadBuf (guestRun host ops).npu barSram off len =
      (plainSram (ops.flatMap GuestOp.accesses)).read off.toNat len := by
  have hheads : ∀ a ∈ ops.flatMap GuestOp.accesses, a.HeadOk WithinRing := by
    intro a ha
    obtain ⟨op, hop, ha⟩ := List.mem_flatMap.mp ha
    exact (h op hop).access ha
  rw [mmioReadBuf_sram hin, guestRun_accesses]
  exact Memory.read_congr fun a hlo hhi => accessRun_plain host hheads (hout a hlo hhi)

/-- Three bytes in front of the regions, written in two pieces that overlap. In between the firmware
boots and creates a context, and the driver takes the reply off the ring. -/
def scratchOps : List GuestOp :=
  .writeBuf barSram 0x100 [1, 2, 3] :: oneContextOps ++ [.write barSram 0x101 7 1]

/-- The bytes around the activity of the device are as the driver has left them. -/
theorem guestRun_plain_scratch :
    mmioReadBuf (guestRun .accepting scratchOps).npu barSram 0x100 3 =
      (plainSram (scratchOps.flatMap GuestOp.accesses)).read 0x100 3 := by
  refine guestRun_plain .accepting (by decide +kernel) (by decide) ?_
  intro a hlo hhi r hr
  have hbounds : ∀ c : ChanIdx, 0x20000 ≤ x2iBase c ∧ x2iBase c ≤ i2xBase c := by decide
  have h100 : (0x100 : UInt32).toNat = 0x100 := rfl
  cases r with
  | info | fwAlive =>
    simp only [Region.Contains, Region.base] at hr
    omega
  | x2i c | i2x c =>
    have := hbounds c
    simp only [Region.Contains, Region.base] at hr
    omega

/-! ## The handshake -/

/-- The liveness word is zero, or it tells the truth. -/
structure Handshake (v : Shared) : Prop where
  info : v.fwAlive = true → v.sram.read Region.info.base 64 = mgmtInfo.encode
  word : v.sram.read Region.fwAlive.base 4 = le32 0 ∨ v.fwAlive = true ∧
    v.sram.read Region.fwAlive.base 4 = le32 (sramDevAddr sramMgmtInfoOff)
  wait : v.pwaitmode &&& 1 = if v.fwAlive then 1 else 0

namespace Handshake

variable {v v' : Shared} {w : UInt32 × UInt32}

/-- A copy into the SRAM that leaves the info block and the liveness word alone. -/
theorem copy (h : Handshake v) {sram : Memory}
    (hinfo : sram.read Region.info.base 64 = v.sram.read Region.info.base 64)
    (hword : sram.read Region.fwAlive.base 4 = v.sram.read Region.fwAlive.base 4 ∨
      sram.read Region.fwAlive.base 4 = le32 0) : Handshake { v with sram := sram } where
  info halive := hinfo.trans (h.info halive)
  word := by
    rcases hword with hword | hword
    · rw [hword]
      exact h.word
    · exact .inl hword
  wait := h.wait

/-- The mailbox keeps the handshake. -/
theorem frame (h : Handshake v) (hframe : MailboxFrame v v') : Handshake v' := by
  obtain ⟨sram, alive, wait⟩ := v'
  obtain ⟨hsram, rfl, rfl⟩ := hframe
  refine h.copy (Memory.read_congr fun a hlo hhi => hsram a ?_)
    (.inl (Memory.read_congr fun a hlo hhi => hsram a ?_))
  · exact not_inRings (.inl ⟨hlo, hhi⟩)
  · exact not_inRings (.inr ⟨hlo, hhi⟩)

/-- A boot of the firmware makes the handshake. -/
theorem boot (v : Shared) : Handshake ⟨bootSram v.sram, true, v.pwaitmode ||| 1⟩ where
  info _ := by
    rw [bootSram, Memory.read_write_disjoint (.inl (by decide)), ← mgmtInfo_encode_length]
    exact Memory.read_write_self ..
  word := .inr ⟨rfl, Memory.read_write_self ..⟩
  wait := by
    apply UInt32.toBitVec_inj.mp
    ext i hi
    simp +contextual

/-- A shutdown of the firmware keeps it. -/
theorem shutdown (v : Shared) : Handshake
    ⟨v.sram.write sramFwAliveOff.toNat (le32 0), false, v.pwaitmode &&& ~~~1⟩ where
  info halive := by cases halive
  word := .inl (Memory.read_write_self ..)
  wait := by
    rw [UInt32.and_assoc, show ~~~(1 : UInt32) &&& 1 = 0 from rfl, UInt32.and_zero]
    rfl

private theorem wordEffect (h : Handshake v) (heffect : WordEffect w v v')
    (hw : w.1 ≠ regPwaitmode) : Handshake v' := by
  cases heffect with
  | frame hframe => exact h.frame hframe
  | wait _ hoff => exact absurd hoff hw
  | boot => exact boot v
  | shutdown => exact shutdown v

end Handshake

/-- The guest leaves `PWAITMODE` and the info block alone, and writes only zeros to the liveness
word. -/
def Access.Polite : Access → Prop
  | .word bar w => ¬ (bar = barReg ∧ w.1 = regPwaitmode)
  | .sram off bytes =>
    (off.toNat + bytes.length ≤ Region.info.base ∨ Region.info.base + 64 ≤ off.toNat) ∧
    (off.toNat + bytes.length ≤ Region.fwAlive.base ∨ Region.fwAlive.base + 4 ≤ off.toNat ∨
      off.toNat ≤ Region.fwAlive.base ∧
        ∀ i < 4, bytes[Region.fwAlive.base - off.toNat + i]? = some 0)

instance : (a : Access) → Decidable a.Polite
  | .word .. => inferInstanceAs (Decidable (¬ (_ ∧ _)))
  | .sram .. => inferInstanceAs (Decidable ((_ ∨ _) ∧ (_ ∨ _ ∨ _ ∧ ∀ i < 4, _)))

private theorem Handshake.sram {v : Shared} (h : Handshake v) {off : UInt32} {bytes : List UInt8}
    (hpolite : (Access.sram off bytes).Polite) :
    Handshake { v with sram := v.sram.write off.toNat bytes } := by
  obtain ⟨hinfo, hword⟩ := hpolite
  refine h.copy (Memory.read_write_disjoint hinfo.symm) ?_
  rcases hword with hword | hword | ⟨hlo, hzero⟩
  · exact .inl (Memory.read_write_disjoint (.inr hword))
  · exact .inl (Memory.read_write_disjoint (.inl hword))
  · right
    apply List.ext_getElem (by simp)
    intro i hi hi'
    have hi4 : i < 4 := by simpa using hi
    have hat := hzero i hi4
    rw [show Region.fwAlive.base - off.toNat + i = Region.fwAlive.base + i - off.toNat by omega]
      at hat
    have hbytes : (le32 0)[i] = 0 := by
      have hall : le32 0 = List.replicate 4 0 := by decide
      simp only [hall, List.getElem_replicate]
    have hle : off.toNat ≤ Region.fwAlive.base + i := by omega
    simp only [Memory.read, Memory.write, List.getElem_map, List.getElem_range, hat, if_pos hle]
    exact hbytes.symm

private theorem accessStep_handshake (host : Host) {m : Machine} (hm : Visited host WithinRing m)
    {a : Access} (hok : a.HeadOk WithinRing) (hpolite : a.Polite) (h : Handshake m.npu.shared) :
    Handshake (accessStep host m a).npu.shared := by
  cases a with
  | sram off bytes =>
    rw [accessStep, mmioWriteBuf, if_pos rfl]
    split
    · exact h
    · rw [Machine.modify_npu, Npu.sramCopy_eq (by omega)]
      exact h.sram hpolite
  | word bar w =>
    by_cases hw : w.1 = regPwaitmode
    · have hbar : bar ≠ barReg := fun hbar => hpolite ⟨hbar, hw⟩
      rw [accessStep, regWrite, if_neg hbar]
      split
      · rename_i hmbox
        refine h.frame ((mailboxFrame_kept host).mboxRegWrite hm fun c v hv => hok (c, v) ?_)
        rw [hmbox]
        exact hv
      · exact h
    · exact h.wordEffect (accessStep_wordEffect host hm hok) hw

/-- What a driver finds that starts to talk to the firmware in the state `m`. -/
structure Announced (host : Host) (m : Machine) : Prop where
  found : ∀ d, (getMgmtChannInfo host d m).2 =
    if rd32 m barSram sramFwAliveOff = 0 then none
    else some { Drv.ofChannel 0 mgmtChannel with x2iTail := d.x2iTail, i2xHead := d.i2xHead }
  alive : rd32 m barSram sramFwAliveOff ≠ 0 → m.npu.fwAlive = true
  wait : rd32 m barReg regPwaitmode &&& 1 = if m.npu.fwAlive then 1 else 0

/-- A word that lies in the SRAM is what the driver reads. -/
theorem rd32_sram (m : Machine) {off v : UInt32} (hin : off.toNat + 4 ≤ barSramSize)
    (h : m.npu.sram.read off.toNat 4 = le32 v) : rd32 m barSram off = v := by
  rw [rd32, mmioRead, show min 4 8 = 4 from rfl, mmioReadBuf_sram hin, h, le32,
    leValue_leBytes_of_lt v.toNat_lt]
  apply UInt32.toNat_inj.mp
  have := v.toNat_lt
  rw [UInt64.toNat_toUInt32, UInt64.toNat_ofNat']
  omega

private theorem decode_mgmtInfo :
    MgmtMboxInfo.decode (Memory.ofBytes mgmtInfo.encode) = mgmtInfo := by
  decide

/-- The driver finds the management channel in the info block. -/
theorem getMgmtChannInfo_found (host : Host) {m : Machine}
    (hinfo : m.npu.sram.read Region.info.base 64 = mgmtInfo.encode)
    (hword : m.npu.sram.read Region.fwAlive.base 4 = le32 (sramDevAddr sramMgmtInfoOff))
    (d : Drv) : getMgmtChannInfo host d m = (wr32 host m barSram sramFwAliveOff 0,
      some { Drv.ofChannel 0 mgmtChannel with x2iTail := d.x2iTail, i2xHead := d.i2xHead }) := by
  have hrd : rd32 m barSram sramFwAliveOff = sramDevAddr sramMgmtInfoOff :=
    rd32_sram m (by decide) hword
  have hread : mmioReadBuf m.npu barSram (sramDevAddr sramMgmtInfoOff - apertureBase1) 64 =
      mgmtInfo.encode := by
    rw [show sramDevAddr sramMgmtInfoOff - apertureBase1 = sramMgmtInfoOff by decide,
      mmioReadBuf_sram (by decide)]
    exact hinfo
  rw [getMgmtChannInfo, hrd, if_neg (by decide)]
  dsimp only
  rw [hread, decode_mgmtInfo, if_neg (by decide), Drv.ofInfo_mgmtInfo]

private theorem Handshake.announced {m : Machine} (h : Handshake m.npu.shared) (host : Host) :
    Announced host m := by
  have hwait : rd32 m barReg regPwaitmode &&& 1 = if m.npu.fwAlive then 1 else 0 := by
    rw [rd32_reg]
    exact h.wait
  rcases h.word with hzero | ⟨halive, hword⟩
  · have hrd : rd32 m barSram sramFwAliveOff = 0 := rd32_sram m (by decide) hzero
    refine ⟨fun d => ?_, fun hne => absurd hrd hne, hwait⟩
    rw [getMgmtChannInfo, hrd]
    rfl
  · have hrd : rd32 m barSram sramFwAliveOff = sramDevAddr sramMgmtInfoOff :=
      rd32_sram m (by decide) hword
    refine ⟨fun d => ?_, fun _ => halive, hwait⟩
    rw [getMgmtChannInfo_found host (h.info halive) hword, hrd, if_neg (by decide)]

private theorem handshake_npuReset : Handshake npuReset.shared where
  info halive := by simp [npuReset_eq, Npu.shared, zeroNpu] at halive
  word := .inl (by rw [npuReset_eq]; rfl)
  wait := by rw [npuReset_eq]; rfl

private theorem accessRun_handshake (host : Host) {as : List Access}
    (h : ∀ a ∈ as, a.HeadOk WithinRing ∧ a.Polite) : Handshake (accessRun host as).npu.shared := by
  induction as using List.reverseRecOn with
  | nil => exact handshake_npuReset
  | append_singleton as a ih =>
    have has : ∀ a ∈ as, a.HeadOk WithinRing ∧ a.Polite := fun a ha => h a (by simp [ha])
    have ha := h a (by simp)
    rw [accessRun_append]
    exact accessStep_handshake host (accessRun_visited fun a ha => (has a ha).1) ha.1 ha.2 (ih has)

/-- A polite guest that finds the liveness word nonzero finds a live firmware and its management
channel, at every point of every run. -/
theorem guestRun_announced (host : Host) {ops : List GuestOp}
    (hheads : ∀ op ∈ ops, op.HeadsOk WithinRing)
    (hpolite : ∀ op ∈ ops, ∀ a ∈ op.accesses, a.Polite) : Announced host (guestRun host ops) := by
  rw [guestRun_accesses]
  refine (accessRun_handshake host fun a ha => ?_).announced host
  obtain ⟨op, hop, ha⟩ := List.mem_flatMap.mp ha
  exact ⟨(hheads op hop).access ha, hpolite op hop a ha⟩

/-- A driver that has booted the firmware and has taken note of the channel. -/
def noticedOps : List GuestOp :=
  validateOps ++ [.write barReg regPubSecIntr pspNotifyVal.toUInt64 4,
    .write barSram sramFwAliveOff 0 4]

/-- The handshake after the driver has cleared the liveness word. -/
theorem guestRun_announced_noticed : Announced .accepting (guestRun .accepting noticedOps) :=
  guestRun_announced .accepting (by decide) (by decide)

end Xdna
