import Xdna.CleanBoot
import Xdna.General.SlotTable

/-!
# Contexts as a finite map

Seen from the driver the context commands of the firmware maintain a map from context ids to
column ranges and heaps, with room for six entries. Slots and their order do not occur in it:
which slot a context has is visible only in the channel it is given. The table of the
firmware stands for this map, because no two valid slots ever have the same id.
-/

namespace Xdna

open ByteMemory SlotTable

/-! ## The abstract map -/

/-- What was asked for when a context was created, and its heap. -/
structure CtxEntry where
  pasid : UInt16
  startCol : UInt8
  numCol : UInt8
  priority : UInt32
  heapAddr : UInt64
  heapSize : UInt64

/-- The entry of a new context: its heap is empty. -/
def CtxEntry.requested (req : CreateCtxReq) : CtxEntry where
  pasid := req.pasid
  startCol := req.startCol
  numCol := req.numCol
  priority := req.contextPriority
  heapAddr := 0
  heapSize := 0

/-- The entry with another host buffer. -/
def CtxEntry.withHeap (e : CtxEntry) (addr size : UInt64) : CtxEntry :=
  { e with heapAddr := addr, heapSize := size }

/-- The contexts by their ids. -/
abbrev CtxMap := UInt32 → Option CtxEntry

/-- The id in a request that names a context. -/
def namedCtx (req : List UInt8) : UInt32 := (Memory.ofBytes req).word32 0

namespace CtxMap

/-- The number of contexts the map has room for. -/
def capacity : ℕ := 6

/-- The answer to CREATE_CONTEXT. -/
noncomputable def createStatus (t : CtxMap) (req : List UInt8) : MsgStatus :=
  if req.length < 28 then .invalidInputBuffer
  else if capacity ≤ size t then .mgmtErtNoavail
  else if 1 ≤ ((Memory.ofBytes req) 5).toNat ∧ ((Memory.ofBytes req) 5).toNat ≤ 5 then .success
  else .mgmtErtInvalidParam

/-- The answer to a request of at least `n` bytes that names a context. -/
def lookupStatus (t : CtxMap) (n : ℕ) (req : List UInt8) : MsgStatus :=
  if req.length < n then .invalidInputBuffer
  else if (t (namedCtx req)).isSome then .success
  else .mgmtErtInvalidParam

/-- The answer to the messages that concern the map. -/
noncomputable def status? (t : CtxMap) (opcode : UInt32) (req : List UInt8) : Option MsgStatus :=
  if opcode = 0x2 then some (t.createStatus req)
  else if opcode = 0x3 then some (t.lookupStatus 4 req)
  else if opcode = 0x106 ∨ opcode = 0x115 then some (t.lookupStatus 20 req)
  else none

/-- The effect of a message that creates no context: a successful DESTROY_CONTEXT removes the
entry, a successful MAP_HOST_BUFFER or ADD_HOST_BUFFER changes its heap. -/
def apply (t : CtxMap) (opcode : UInt32) (req : List UInt8) : CtxMap :=
  if opcode = 0x3 ∧ t.lookupStatus 4 req = .success then
    Function.update t (namedCtx req) none
  else if (opcode = 0x106 ∨ opcode = 0x115) ∧ t.lookupStatus 20 req = .success then
    Function.update t (namedCtx req) ((t (namedCtx req)).map fun e =>
      e.withHeap ((Memory.ofBytes req).word64 4) ((Memory.ofBytes req).word64 12))
  else t

end CtxMap

/-- The map, and the ids given out since reset. -/
structure CtxState where
  map : CtxMap
  used : Set UInt32

/-- What can be seen of context management: requests, the replies the firmware makes to them,
and RELEASE_TMR commands. -/
inductive Obs where
  | request (opcode : UInt32) (req : List UInt8)
  | reply (opcode : UInt32) (payload : List UInt8)
  | release

/-- The steps of the map with what is seen of them. -/
inductive CtxStep (st : CtxState) : List Obs → CtxState → Prop
  | created (id : UInt32) (req reply : List UInt8) (hid : id ≠ 0) (hfresh : id ∉ st.used)
      (hstatus : st.map.createStatus req = .success)
      (hreply : reply.take 8 = le32 0 ++ le32 id) :
      CtxStep st [.request 0x2 req, .reply 0x2 reply]
        ⟨Function.update st.map id (some (.requested (CreateCtxReq.decode (Memory.ofBytes req)))),
          insert id st.used⟩
  | answered (opcode : UInt32) (req reply : List UInt8)
      (hcreate : opcode = 0x2 → st.map.createStatus req ≠ .success)
      (hstatus : ∀ s, st.map.status? opcode req = some s → reply.take 4 = le32 s.code) :
      CtxStep st [.request opcode req, .reply opcode reply] ⟨st.map.apply opcode req, st.used⟩
  | unanswered (req : List UInt8) : CtxStep st [.request 0x10C req] st
  | released : CtxStep st [.release] ⟨fun _ => none, st.used⟩

/-- The sequences of observations that the map allows from reset on, and where they lead. -/
inductive CtxRun : List Obs → CtxState → Prop
  | reset : CtxRun [] ⟨fun _ => none, ∅⟩
  | step {os os' : List Obs} {st st' : CtxState} (h : CtxRun os st) (hstep : CtxStep st os' st') :
      CtxRun (os ++ os') st'

/-! ## The table of the firmware -/

/-- The entry for a context record. -/
def Context.entry (ctx : Context) : CtxEntry where
  pasid := ctx.pasid
  startCol := ctx.startCol
  numCol := ctx.numCol
  priority := ctx.priority
  heapAddr := ctx.heapAddr
  heapSize := ctx.heapSize

/-- What a slot holds; records of destroyed contexts do not count. -/
def Context.slot (ctx : Context) : Option (UInt32 × CtxEntry) :=
  if ctx.valid then some (ctx.id, ctx.entry) else none

/-- The table of the firmware as a table of slots. -/
def slotsOf (npu : Npu) (s : SlotIdx) : Option (UInt32 × CtxEntry) := (npu.ctx s).slot

/-- The map as the lookups of the firmware see it. -/
def contextsOf (npu : Npu) : CtxMap := fun id => (ctxById npu id).map fun s => (npu.ctx s).entry

variable {npu npu' : Npu} {s : SlotIdx} {id : UInt32}

private theorem slotsOf_eq_some {e : CtxEntry} :
    slotsOf npu s = some (id, e) ↔
      (npu.ctx s).valid = true ∧ (npu.ctx s).id = id ∧ (npu.ctx s).entry = e := by
  simp [slotsOf, Context.slot]

/-- A lookup finds the entry of its slot. -/
theorem slotsOf_of_ctxById (h : ctxById npu id = some s) :
    slotsOf npu s = some (id, (npu.ctx s).entry) :=
  slotsOf_eq_some.mpr ⟨(ctxById_valid h).1, (ctxById_valid h).2, rfl⟩

/-- An id that some slot holds is found. -/
theorem exists_ctxById {e : CtxEntry} (h : slotsOf npu s = some (id, e)) :
    ∃ s', ctxById npu id = some s' := by
  obtain ⟨hvalid, hid, _⟩ := slotsOf_eq_some.mp h
  rw [← Option.isSome_iff_exists, ctxById, List.find?_isSome]
  exact ⟨s, List.mem_finRange s, by simp [hvalid, hid]⟩

/-- The lookups read the map that the slots stand for. -/
theorem contextsOf_eq (h : Distinct (slotsOf npu)) : contextsOf npu = contents (slotsOf npu) := by
  refine (contents_ext h fun k e => ?_).symm
  unfold contextsOf
  constructor
  · rintro ⟨s, hs⟩
    obtain ⟨s', hs'⟩ := exists_ctxById hs
    have heq := h hs (slotsOf_of_ctxById hs')
    subst heq
    rw [hs', Option.map_some, (slotsOf_eq_some.mp hs).2.2]
  · intro he
    obtain ⟨s, hs, rfl⟩ := Option.map_eq_some_iff.mp he
    exact ⟨s, slotsOf_of_ctxById hs⟩

/-- One slot changes. -/
theorem slotsOf_update {ctx : Context} (h : npu'.ctx = Function.update npu.ctx s ctx) :
    slotsOf npu' = Function.update (slotsOf npu) s ctx.slot := by
  funext s'
  rw [slotsOf, h]
  by_cases hs : s' = s
  · subst hs
    simp
  · rw [Function.update_of_ne hs, Function.update_of_ne hs, slotsOf]

/-- The table stands for the map of `st`, and the ids below the counter are those used. -/
structure Tracks (npu : Npu) (st : CtxState) : Prop where
  distinct : Distinct (slotsOf npu)
  map : st.map = contents (slotsOf npu)
  used : ∀ k, k ∈ st.used ↔ 0 < k.toNat ∧ k.toNat < npu.nextCtxId.toNat
  ids : ∀ s k e, slotsOf npu s = some (k, e) → k ∈ st.used
  counter : 0 < npu.nextCtxId.toNat

variable {st : CtxState}

/-- The map follows the contexts and the counter of ids. -/
theorem Tracks.congr (h : Tracks npu st) (hctx : npu'.ctx = npu.ctx)
    (hnext : npu'.nextCtxId = npu.nextCtxId) : Tracks npu' st := by
  have hslots : slotsOf npu' = slotsOf npu := by
    funext s
    rw [slotsOf, slotsOf, hctx]
  exact ⟨hslots ▸ h.distinct, hslots ▸ h.map, hnext ▸ h.used, hslots ▸ h.ids, hnext ▸ h.counter⟩

/-- The firmware finds a context exactly when the map has its id. -/
theorem Tracks.lookup (h : Tracks npu st) :
    (st.map id).isSome ↔ ∃ s, ctxById npu id = some s := by
  rw [h.map, ← contextsOf_eq h.distinct, contextsOf, Option.isSome_map, Option.isSome_iff_exists]

/-- The map is full when no slot is free. -/
theorem Tracks.full_iff (h : Tracks npu st) :
    CtxMap.capacity ≤ size st.map ↔ freeSlot npu = none := by
  have hsize : size st.map = (validSlots npu).card := by
    rw [h.map, h.distinct.size_contents, ← Set.ncard_coe_finset]
    congr 1
    ext s
    by_cases hvalid : (npu.ctx s).valid = true <;>
      simp [slotsOf, Context.slot, mem_validSlots, hvalid]
  rw [hsize]
  constructor
  · intro hcap
    rw [freeSlot_eq_none]
    intro s
    have huniv : validSlots npu = Finset.univ :=
      Finset.eq_univ_of_card _ (le_antisymm (Finset.card_le_univ _) hcap)
    exact mem_validSlots.mp (huniv ▸ Finset.mem_univ s)
  · intro hnone
    by_contra hlt
    obtain ⟨s, hs⟩ := exists_freeSlot (not_le.mp hlt)
    rw [hnone] at hs
    cases hs

/-! ## The three changes of the table -/

/-- A creation adds an id to the map that was never used. -/
theorem Tracks.create (h : Tracks npu st) (req : CreateCtxReq) (hfree : freeSlot npu = some s)
    (hwrap : npu.nextCtxId.toNat + 1 < 2 ^ 32) :
    Tracks (createContext npu s req)
      ⟨Function.update st.map npu.nextCtxId (some (.requested req)),
        insert npu.nextCtxId st.used⟩ := by
  have hslots : slotsOf (createContext npu s req) =
      Function.update (slotsOf npu) s (some (npu.nextCtxId, .requested req)) :=
    slotsOf_update (createContext_ctx npu s req)
  have hempty : slotsOf npu s = none := by
    simp [slotsOf, Context.slot, freeSlot_valid hfree]
  have hfresh (s' : SlotIdx) (e : CtxEntry) : slotsOf npu s' ≠ some (npu.nextCtxId, e) :=
    fun hs' => absurd ((h.used _).mp (h.ids _ _ _ hs')).2 (Nat.lt_irrefl _)
  have hnext : (createContext npu s req).nextCtxId.toNat = npu.nextCtxId.toNat + 1 := by
    rw [createContext_nextCtxId, UInt32.toNat_add]
    exact Nat.mod_eq_of_lt hwrap
  refine ⟨?_, ?_, fun k => ?_, fun s' k e hs' => ?_, by omega⟩
  · exact hslots ▸ h.distinct.put fun s' e _ => hfresh s' e
  · rw [hslots, h.map, h.distinct.contents_put (fun s' e _ => hfresh s' e)
      fun k e hs => by rw [hempty] at hs; cases hs]
  · rw [hnext, Set.mem_insert_iff, h.used, ← UInt32.toNat_inj]
    have := h.counter
    omega
  · rw [hslots, update_eq_some] at hs'
    rcases hs' with ⟨_, hnew⟩ | ⟨_, hold⟩
    · exact .inl (Prod.ext_iff.mp (Option.some.inj hnew)).1.symm
    · exact .inr (h.ids _ _ _ hold)

/-- The end of a context takes its id out of the map. -/
theorem Tracks.destroy (h : Tracks npu st) (hid : ctxById npu id = some s) :
    Tracks (destroyContext npu s) ⟨Function.update st.map id none, st.used⟩ := by
  have hslots : slotsOf (destroyContext npu s) = Function.update (slotsOf npu) s none :=
    slotsOf_update (destroyContext_ctx npu s)
  refine ⟨hslots ▸ h.distinct.erase s, ?_, ?_, fun s' k e hs' => ?_, ?_⟩
  · rw [hslots, h.map, h.distinct.contents_erase (slotsOf_of_ctxById hid)]
  · rw [destroyContext_nextCtxId]
    exact h.used
  · rw [hslots, update_eq_some] at hs'
    rcases hs' with ⟨_, hnone⟩ | ⟨_, hold⟩
    · cases hnone
    · exact h.ids _ _ _ hold
  · rw [destroyContext_nextCtxId]
    exact h.counter

/-- A host buffer changes the entry of its context. -/
theorem Tracks.heap (h : Tracks npu st) (req : MapHostBufferReq)
    (hid : ctxById npu id = some s) :
    Tracks (mapHeap npu s req)
      ⟨Function.update st.map id ((st.map id).map (·.withHeap req.bufAddr req.bufSize)),
        st.used⟩ := by
  have hs := slotsOf_of_ctxById hid
  have hctx := ctxById_valid hid
  have hslots : slotsOf (mapHeap npu s req) = Function.update (slotsOf npu) s
      (some (id, (npu.ctx s).entry.withHeap req.bufAddr req.bufSize)) := by
    rw [slotsOf_update (show (mapHeap npu s req).ctx = Function.update npu.ctx s _ from rfl)]
    simp [Context.slot, hctx.1, hctx.2, Context.entry, CtxEntry.withHeap]
  have hother (s' : SlotIdx) (e : CtxEntry) (hne : s' ≠ s) : slotsOf npu s' ≠ some (id, e) :=
    fun hs' => hne (h.distinct hs' hs)
  have hmap : st.map id = some (npu.ctx s).entry := by
    rw [h.map, h.distinct.contents_eq_some]
    exact ⟨s, hs⟩
  refine ⟨hslots ▸ h.distinct.put hother, ?_, h.used, fun s' k e hs' => ?_, h.counter⟩
  · rw [hmap, hslots, h.map, h.distinct.contents_put hother]
    · rfl
    · intro k e hs'
      rw [hs] at hs'
      exact (Prod.ext_iff.mp (Option.some.inj hs')).1.symm
  · rw [hslots, update_eq_some] at hs'
    rcases hs' with ⟨_, hnew⟩ | ⟨_, hold⟩
    · obtain ⟨rfl, _⟩ := Prod.ext_iff.mp (Option.some.inj hnew)
      exact h.ids _ _ _ hs
    · exact h.ids _ _ _ hold

end Xdna
