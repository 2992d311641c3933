import LinearHeap.Proofs.Copies
import LinearHeap.Proofs.LiveSet

/-!
# Buffers keep their contents

Several clients share a heap. Each calls the allocator, gives back only what it was itself granted,
reads wherever it likes, and writes inside its own live buffers. A session keeps beside the heap,
for every live buffer, its client, the region as it was when the buffer was granted, and the byte
last written through it at every offset. `Session.buffers_of_run` says that the region holds just
that, after any interleaving of the clients' calls.

Two frames carry the proof. A request touches the bitmap only, and no buffer lies there
(`Heap.getElem?_perform`); a permitted write touches the bytes of one buffer only, which are apart
from those of every other and from the bitmap (`Session.Intact.copy_eq_overwrite`,
`Session.Intact.bitmap_copy`).
-/

set_option autoImplicit false
set_option relaxedAutoImplicit false

namespace LinearHeap

/-! ### Buffers -/

/-- A live allocation as its client sees it. -/
structure Buffer (Client : Type) where
  client : Client
  allocation : Allocation
  /-- The region when the buffer was granted. -/
  before : Region
  /-- The byte last written through the buffer at an offset, if there is one. -/
  written : Nat → Option UInt8

section Session

variable {Client : Type}

namespace Buffer

/-- Some bytes lie inside the size that was asked for. -/
def Holds (buffer : Buffer Client) (offset count : Nat) : Prop :=
  buffer.allocation.offset ≤ offset ∧
    offset + count ≤ buffer.allocation.offset + buffer.allocation.size

instance (buffer : Buffer Client) (offset count : Nat) : Decidable (buffer.Holds offset count) :=
  inferInstanceAs (Decidable (_ ∧ _))

/-- What the region should hold at an offset of the buffer: the byte last written through it, and
the byte of the region when it was granted if there was no such write. -/
def contents (buffer : Buffer Client) (i : Nat) : Option UInt8 :=
  (buffer.written i).or buffer.before.bytes[i]?

/-- The live buffers without those that take up the returned space. -/
def strike (buffers : List (Buffer Client)) : Option Allocation → List (Buffer Client)
  | none => buffers
  | some returned => buffers.filter fun buffer ↦ ¬ buffer.allocation.SameSpace returned

/-- The live buffers with the one that a client was granted. -/
def enter (buffers : List (Buffer Client)) (client : Client) (before : Region) :
    Option Allocation → List (Buffer Client)
  | none => buffers
  | some granted => ⟨client, granted, before, fun _ ↦ none⟩ :: buffers

theorem map_allocation_strike (buffers : List (Buffer Client)) (returned : Option Allocation) :
    (strike buffers returned).map allocation =
      Allocation.strike (buffers.map allocation) returned := by
  cases returned with
  | none => rfl
  | some returned =>
    rw [strike, Allocation.strike, List.filter_map]
    rfl

theorem map_allocation_enter (buffers : List (Buffer Client)) (client : Client) (before : Region)
    (granted : Option Allocation) :
    (enter buffers client before granted).map allocation =
      Allocation.enter (buffers.map allocation) granted := by
  cases granted <;> rfl

/-- A buffer in the list after a request was there before, or it holds what the region held. -/
theorem mem_enter_strike {buffers : List (Buffer Client)} {client : Client} {before : Region}
    {returned granted : Option Allocation} {buffer : Buffer Client}
    (h : buffer ∈ enter (strike buffers returned) client before granted) :
    buffer ∈ buffers ∨ ∀ i, buffer.contents i = before.bytes[i]? := by
  have hold : buffer ∈ strike buffers returned → buffer ∈ buffers := by
    cases returned with
    | none => exact id
    | some returned => exact fun hkept ↦ (List.mem_filter.mp hkept).1
  cases granted with
  | none => exact Or.inl (hold h)
  | some granted =>
    rcases List.mem_cons.mp h with hnew | hkept
    · refine Or.inr fun i ↦ ?_
      rw [hnew, contents, Option.none_or]
    · exact Or.inl (hold hkept)

/-- A buffer elsewhere than the returned space stays in the list. -/
theorem mem_enter_strike_of_not_sameSpace {buffers : List (Buffer Client)} (client : Client)
    (before : Region) {returned : Option Allocation} (granted : Option Allocation)
    {buffer : Buffer Client} (hbuffer : buffer ∈ buffers)
    (h : ∀ space, returned = some space → ¬ buffer.allocation.SameSpace space) :
    buffer ∈ enter (strike buffers returned) client before granted := by
  have hkept : buffer ∈ strike buffers returned := by
    cases returned with
    | none => exact hbuffer
    | some returned => exact List.mem_filter.mpr ⟨hbuffer, decide_eq_true (h returned rfl)⟩
  cases granted with
  | none => exact hkept
  | some granted => exact List.mem_cons_of_mem _ hkept

variable [DecidableEq Client] {buffer : Buffer Client} {client : Client} {offset i : Nat}
  {source : List UInt8}

/-- The buffer after its client, if it is this one, has written some bytes inside it. -/
def note (client : Client) (offset : Nat) (source : List UInt8) (buffer : Buffer Client) :
    Buffer Client :=
  if buffer.client = client ∧ buffer.Holds offset source.length then
    ⟨buffer.client, buffer.allocation, buffer.before, fun i ↦
      if offset ≤ i ∧ i < offset + source.length then source[i - offset]? else buffer.written i⟩
  else buffer

@[simp] theorem allocation_note (client : Client) (offset : Nat) (source : List UInt8)
    (buffer : Buffer Client) :
    (buffer.note client offset source).allocation = buffer.allocation := by
  unfold note
  split <;> rfl

theorem note_of_ne (h : buffer.client ≠ client) : buffer.note client offset source = buffer :=
  if_neg fun hnoted ↦ h hnoted.1

/-- A written byte is the one that the write put there. -/
theorem contents_note_of_mem (hclient : buffer.client = client)
    (hholds : buffer.Holds offset source.length) (hle : offset ≤ i)
    (hlt : i < offset + source.length) :
    (buffer.note client offset source).contents i = source[i - offset]? := by
  have hbyte : source[i - offset]? = some source[i - offset] :=
    List.getElem?_eq_getElem (by omega)
  rw [note, if_pos ⟨hclient, hholds⟩, contents]
  dsimp only
  rw [if_pos ⟨hle, hlt⟩, hbyte, Option.some_or]

/-- A write does not change the contents elsewhere. -/
theorem contents_note_of_not_mem (h : ¬ (offset ≤ i ∧ i < offset + source.length)) :
    (buffer.note client offset source).contents i = buffer.contents i := by
  unfold note
  split
  · simp only [contents, if_neg h]
  · rfl

end Buffer

/-! ### Sessions -/

/-- What a client does: it calls the allocator or copies. -/
inductive Event (Client : Type) where
  | request (client : Client) (call : Call)
  | copy (client : Client) (copy : Copy)

def Event.client : Event Client → Client
  | request client _ | copy client _ => client

/-- A heap and the buffers that are live in it. -/
structure Session (Client : Type) where
  heap : Heap
  buffers : List (Buffer Client)

namespace Session

/-- The ledger of a session, which does not know whose the allocations are. -/
def ledger (session : Session Client) : Ledger :=
  ⟨session.heap, session.buffers.map Buffer.allocation⟩

/-- A client gives back only buffers of its own, by their own size, and writes only inside them. -/
def Admits (session : Session Client) : Event Client → Prop
  | .request client call =>
    ∀ settlement, (session.heap.perform call).outcome = .ok settlement →
      ∀ returned, settlement.returned = some returned →
        ∃ buffer ∈ session.buffers, buffer.client = client ∧ buffer.allocation = returned
  | .copy client copy => copy.stored = [] ∨
      ∃ buffer ∈ session.buffers, buffer.client = client ∧
        buffer.Holds copy.offset copy.stored.length

/-- The bitmap and the buffers say the same, and the region holds their contents. -/
structure Intact (session : Session Client) : Prop where
  balanced : session.ledger.Balanced
  holds : ∀ buffer ∈ session.buffers, ∀ i, buffer.Holds i 1 →
    session.heap.region.bytes[i]? = buffer.contents i

variable {session : Session Client} {client : Client} {call : Call} {copy : Copy}
  {event : Event Client} {buffer first second : Buffer Client} {i : Nat}

theorem admits_request_of_ok {settlement : Settlement}
    (h : (session.heap.perform call).outcome = .ok settlement)
    (hown : ∀ returned, settlement.returned = some returned →
      ∃ buffer ∈ session.buffers, buffer.client = client ∧ buffer.allocation = returned) :
    session.Admits (.request client call) := by
  intro other hother
  rw [h, Outcome.ok.injEq] at hother
  exact hother ▸ hown

theorem admits_allocate {align size : Nat} :
    session.Admits (.request client (.allocate align size)) := by
  intro settlement hok returned hreturned
  rw [Heap.returned_of_perform_allocate hok] at hreturned
  cases hreturned

/-- A client that gives back a buffer of its own gives back a live allocation. -/
theorem Admits.ledger (h : session.Admits (.request client call)) : session.ledger.Admits call := by
  intro settlement hok returned hreturned
  obtain ⟨buffer, hbuffer, _, hallocation⟩ := h settlement hok returned hreturned
  refine ⟨buffer.allocation, List.mem_map_of_mem hbuffer, ?_⟩
  rw [hallocation]
  exact ⟨rfl, rfl⟩

namespace Intact

theorem placed (h : session.Intact) (hbuffer : buffer ∈ session.buffers) :
    buffer.allocation.Placed :=
  h.balanced.placed _ (List.mem_map_of_mem hbuffer)

/-- A byte lies inside one live buffer at most. -/
theorem eq_of_holds (h : session.Intact) (hfirst : first ∈ session.buffers)
    (hsecond : second ∈ session.buffers) (hin : first.Holds i 1) (hin' : second.Holds i 1) :
    first = second := by
  have : Std.Symm fun one other : Buffer Client ↦ one.allocation.Apart other.allocation :=
    ⟨fun _ _ ↦ Allocation.Apart.symm⟩
  by_contra hne
  have hapart := (List.pairwise_map.mp h.balanced.apart).forall hfirst hsecond hne
  have hsize := first.allocation.size_le_footprint
  have hsize' := second.allocation.size_le_footprint
  simp only [Allocation.Apart, Buffer.Holds] at *
  omega

/-- What lies inside a live buffer lies inside the region. -/
theorem le_size (h : session.Intact) (hbuffer : buffer ∈ session.buffers) {offset count : Nat}
    (hin : buffer.Holds offset count) : offset + count ≤ session.heap.region.size := by
  have hend := (h.placed hbuffer).le_capacity
  have hsize := buffer.allocation.size_le_footprint
  have hregion := session.heap.capacity_le
  have hcount := hin.2
  omega

/-- A permitted copy is one write of its bytes. -/
theorem copy_eq_overwrite (h : session.Intact) (hadmits : session.Admits (.copy client copy)) :
    (session.heap.copy copy).region =
      session.heap.region.overwrite copy.offset copy.stored := by
  apply Heap.region_copy
  rcases hadmits with hnone | ⟨writer, hwriter, _, hholds⟩
  · exact Or.inl hnone
  · exact Or.inr (h.le_size hwriter hholds)

/-- No permitted copy reaches the bitmap. -/
theorem bitmap_copy (h : session.Intact) (hadmits : session.Admits (.copy client copy)) :
    (session.heap.copy copy).bitmap = session.heap.bitmap := by
  apply Heap.bitmap_copy
  rcases hadmits with hnone | ⟨writer, hwriter, _, hholds⟩
  · exact Or.inl hnone
  · exact Or.inr (Nat.le_trans (h.placed hwriter).heapStart_le hholds.1)

end Intact

/-! ### One event -/

section Step

variable [DecidableEq Client]

/-- One event. A request that succeeds strikes out and enters buffers as a ledger does, and a copy
is noted in the buffer that it writes to. -/
def step (session : Session Client) : Event Client → Session Client
  | .request client call =>
    ⟨(session.heap.perform call).state,
      match (session.heap.perform call).outcome with
      | .ok settlement =>
        Buffer.enter (Buffer.strike session.buffers settlement.returned) client
          session.heap.region settlement.granted
      | .refused _ | .fault _ => session.buffers⟩
  | .copy client copy =>
    ⟨session.heap.copy copy, session.buffers.map (Buffer.note client copy.offset copy.stored)⟩

theorem step_request_of_ok (session : Session Client) (client : Client) {settlement : Settlement}
    (h : (session.heap.perform call).outcome = .ok settlement) :
    session.step (.request client call) = ⟨(session.heap.perform call).state,
      Buffer.enter (Buffer.strike session.buffers settlement.returned) client
        session.heap.region settlement.granted⟩ := by
  rw [step, h]

/-- A session and its ledger take a request alike. -/
theorem ledger_step_request (session : Session Client) (client : Client) (call : Call) :
    (session.step (.request client call)).ledger = session.ledger.step call := by
  simp only [ledger, step, Ledger.step]
  cases (session.heap.perform call).outcome with
  | ok settlement =>
    dsimp only
    rw [Buffer.map_allocation_enter, Buffer.map_allocation_strike]
  | refused refusal => rfl
  | fault cause => rfl

/-- The ledger of a session takes no notice of a copy. -/
theorem live_ledger_step_copy (session : Session Client) (client : Client) (copy : Copy) :
    (session.step (.copy client copy)).ledger.live = session.ledger.live := by
  simp only [ledger, step, List.map_map]
  exact List.map_congr_left fun buffer _ ↦ Buffer.allocation_note _ _ _ buffer

/-- A buffer after a request was there before, or it holds what the region held. -/
theorem mem_buffers_step_request
    (h : buffer ∈ (session.step (.request client call)).buffers) :
    buffer ∈ session.buffers ∨ ∀ i, buffer.contents i = session.heap.region.bytes[i]? := by
  simp only [step] at h
  split at h
  · exact Buffer.mem_enter_strike h
  · exact Or.inl h
  · exact Or.inl h

namespace Intact

/-- After a permitted copy the region holds what is noted for every live buffer. -/
theorem getElem?_copy (h : session.Intact) (hadmits : session.Admits (.copy client copy))
    (hbuffer : buffer ∈ session.buffers) (hin : buffer.Holds i 1) :
    (session.heap.copy copy).region.bytes[i]? =
      (buffer.note client copy.offset copy.stored).contents i := by
  rw [h.copy_eq_overwrite hadmits, Region.getElem?_overwrite]
  by_cases hrange : copy.offset ≤ i ∧ i < copy.offset + copy.stored.length
  · rcases hadmits with hnone | ⟨writer, hwriter, hclient, hholds⟩
    · rw [hnone, List.length_nil] at hrange
      omega
    · -- The byte is in the writer's buffer, so this is the writer's buffer.
      have hwritten : writer.Holds i 1 :=
        ⟨Nat.le_trans hholds.1 hrange.1, Nat.le_trans (Nat.succ_le_of_lt hrange.2) hholds.2⟩
      have hsame := h.eq_of_holds hbuffer hwriter hin hwritten
      subst hsame
      rw [if_pos ⟨h.le_size hwriter hin, hrange⟩,
        Buffer.contents_note_of_mem hclient hholds hrange.1 hrange.2]
  · rw [if_neg (fun hcopied ↦ hrange hcopied.2), Buffer.contents_note_of_not_mem hrange]
    exact h.holds buffer hbuffer i hin

theorem step_copy (h : session.Intact) (hadmits : session.Admits (.copy client copy)) :
    (session.step (.copy client copy)).Intact := by
  refine ⟨?_, ?_⟩
  · rw [Ledger.Balanced, live_ledger_step_copy]
    exact (h.bitmap_copy hadmits).symm ▸ h.balanced
  · intro noted hnoted i hin
    obtain ⟨buffer, hbuffer, rfl⟩ := List.mem_map.mp hnoted
    rw [Buffer.Holds, Buffer.allocation_note] at hin
    exact h.getElem?_copy hadmits hbuffer hin

theorem step_request (h : session.Intact) (hadmits : session.Admits (.request client call)) :
    (session.step (.request client call)).Intact := by
  have hbalanced : (session.step (.request client call)).ledger.Balanced := by
    rw [ledger_step_request]
    exact h.balanced.step hadmits.ledger
  refine ⟨hbalanced, fun buffer hbuffer i hin ↦ ?_⟩
  have hplaced := hbalanced.placed _ (List.mem_map_of_mem hbuffer)
  have hframe : (session.step (.request client call)).heap.region.bytes[i]? =
      session.heap.region.bytes[i]? :=
    session.heap.getElem?_perform call (Nat.le_trans hplaced.heapStart_le hin.1)
  rw [hframe]
  rcases mem_buffers_step_request hbuffer with hold | hnew
  · exact h.holds buffer hold i hin
  · exact (hnew i).symm

/-- An event that keeps to the rules keeps a session intact. -/
theorem step (h : session.Intact) (hadmits : session.Admits event) :
    (session.step event).Intact := by
  cases event with
  | request client call => exact h.step_request hadmits
  | copy client copy => exact h.step_copy hadmits

/-- An event of one client keeps the buffers of all others. -/
theorem mem_step_of_ne (h : session.Intact) (hadmits : session.Admits event)
    (hbuffer : buffer ∈ session.buffers) (hother : buffer.client ≠ event.client) :
    buffer ∈ (session.step event).buffers := by
  cases event with
  | copy client copy => exact List.mem_map.mpr ⟨buffer, hbuffer, Buffer.note_of_ne hother⟩
  | request client call =>
    simp only [Session.step]
    split
    · next settlement hok =>
      apply Buffer.mem_enter_strike_of_not_sameSpace _ _ _ hbuffer
      intro returned hreturned hsame
      obtain ⟨own, hown, hclient, rfl⟩ := hadmits settlement hok returned hreturned
      -- The first byte of the buffer would be one of a buffer of the client.
      have hpos := (h.placed hbuffer).size_pos
      have hpos' := (h.placed hown).size_pos
      have hsame := h.eq_of_holds hbuffer hown ⟨Nat.le_refl _, by omega⟩
        ⟨Nat.le_of_eq hsame.1.symm, by rw [hsame.1]; omega⟩
      rw [hsame] at hother
      exact hother hclient
    · exact hbuffer
    · exact hbuffer

end Intact

end Step

/-! ### Runs -/

section Run

variable [DecidableEq Client]

/-- Serves a list of events, the first one first. -/
def run (session : Session Client) (events : List (Event Client)) : Session Client :=
  events.foldl step session

/-- Two clients share the first four granules; the second gives its granule back and the first
writes into its own. -/
private theorem admitsAll_release_write {heap : Heap}
    (hbitmap : heap.bitmap = Bitmap.empty.fill ⟨0, 4⟩) (before before' : Region) :
    AdmitsAll step Admits (⟨heap, [⟨1, ⟨536, 8⟩, before', fun _ ↦ none⟩,
        ⟨0, ⟨512, 24⟩, before, fun _ ↦ none⟩]⟩ : Session Nat)
      [.request 1 (.release 536 8 8), .copy 0 (.write .uint8 513 [7])] := by
  have hok : (heap.perform (.release 536 8 8)).outcome = .ok ⟨some ⟨536, 8⟩, none⟩ := by
    simp only [Heap.perform, Reply.map, Heap.outcome_release, hbitmap]
    decide +kernel
  rw [AdmitsAll, step_request_of_ok _ 1 hok]
  refine ⟨admits_request_of_ok hok ?_,
    Or.inr ⟨⟨0, ⟨512, 24⟩, before, fun _ ↦ none⟩, ?_, rfl, ?_⟩, trivial⟩
  · intro returned hreturned
    rw [← Option.some.inj hreturned]
    exact ⟨_, List.mem_cons_self, rfl, rfl⟩
  · dsimp only
    apply Buffer.mem_enter_strike_of_not_sameSpace _ _ _
      (List.mem_cons_of_mem _ List.mem_cons_self)
    intro space hspace
    rw [← Option.some.inj hspace]
    change ¬ (Allocation.mk 512 24).SameSpace ⟨536, 8⟩
    decide
  · exact ⟨show 512 ≤ 513 by decide, show 513 + 1 ≤ 512 + 24 by decide⟩

/-- In a heap without allocations two clients are granted granules 0, 1 and 2 and granule 3, and go
on from there. -/
private theorem admitsAll_two_clients {heap : Heap} (hbitmap : heap.bitmap = Bitmap.empty) :
    AdmitsAll step Admits (⟨heap, []⟩ : Session Nat)
        [.request 0 (.allocate 8 24), .request 1 (.allocate 8 8),
          .request 1 (.release 536 8 8), .copy 0 (.write .uint8 513 [7])] ∧
      (run (⟨heap, []⟩ : Session Nat) [.request 0 (.allocate 8 24),
        .request 1 (.allocate 8 8)]).buffers.map Buffer.allocation = [⟨536, 8⟩, ⟨512, 24⟩] := by
  obtain ⟨hok, hfirst⟩ := heap.perform_allocate_first hbitmap
  have hone : step ⟨heap, []⟩ (.request 0 (.allocate 8 24)) =
      ⟨(heap.perform (.allocate 8 24)).state, [⟨0, ⟨512, 24⟩, heap.region, fun _ ↦ none⟩]⟩ :=
    step_request_of_ok ⟨heap, []⟩ 0 hok
  generalize (heap.perform (.allocate 8 24)).state = one at hfirst hone
  have hok' : (one.perform (.allocate 8 8)).outcome = .ok ⟨none, some ⟨536, 8⟩⟩ := by
    simp only [Heap.perform, Reply.map, Heap.outcome_allocate, hfirst]
    decide +kernel
  have hsecond : (one.perform (.allocate 8 8)).state.bitmap = Bitmap.empty.fill ⟨0, 4⟩ := by
    simp only [Heap.perform, Reply.map, Heap.state_allocate, Heap.bitmap_setBitmap, hfirst]
    decide +kernel
  have htwo := step_request_of_ok ⟨one, [⟨0, ⟨512, 24⟩, heap.region, fun _ ↦ none⟩]⟩ 1 hok'
  rw [AdmitsAll, AdmitsAll, run, List.foldl_cons, List.foldl_cons, hone, htwo]
  exact ⟨⟨admits_allocate, admits_allocate, admitsAll_release_write hsecond _ _⟩, rfl⟩

/-- Buffers keep their contents. After every event, each byte inside a live buffer is the one that
was last written there through the buffer, or, if there was no such write, the one that was there
when the buffer was granted. A write that keeps to the rules changes no word of the bitmap, and an
event of one client neither ends the buffers of another nor changes a byte inside them. Assumes: a
heap that was just made, and clients that give back only buffers of their own, by their own size,
and write only inside their buffers. -/
theorem buffers_of_run {start : Heap} (hfresh : start.Fresh) {events : List (Event Client)}
    (hadmits : AdmitsAll step Admits ⟨start, []⟩ events) {done : List (Event Client)}
    (hdone : done <+: events) :
    let session := run ⟨start, []⟩ done
    (∀ buffer ∈ session.buffers, ∀ i, buffer.Holds i 1 →
      ∃ byte, session.heap.region.bytes[i]? = some byte ∧ buffer.contents i = some byte) ∧
    (∀ client copy, session.Admits (.copy client copy) →
      ∀ index, (session.step (.copy client copy)).heap.word? index = session.heap.word? index) ∧
    ∀ event, session.Admits event →
      ∀ buffer ∈ session.buffers, buffer.client ≠ event.client →
        buffer ∈ (session.step event).buffers ∧ ∀ i, buffer.Holds i 1 →
          (session.step event).heap.region.bytes[i]? = session.heap.region.bytes[i]? := by
  intro session
  have hempty : (Session.mk start ([] : List (Buffer Client))).Intact :=
    ⟨Ledger.Balanced.of_fresh hfresh, fun _ h ↦ absurd h List.not_mem_nil⟩
  have h : session.Intact :=
    (hadmits.of_prefix hdone).invariant (fun _ _ hintact ↦ hintact.step) hempty
  refine ⟨?_, ?_, ?_⟩
  · intro buffer hbuffer i hin
    have hbyte : session.heap.region.bytes[i]? = some _ :=
      Array.getElem?_eq_getElem (h.le_size hbuffer hin)
    exact ⟨_, hbyte, (h.holds buffer hbuffer i hin).symm.trans hbyte⟩
  · intro client copy hcopy index
    exact congrArg (fun bitmap ↦ Bitmap.word? bitmap index) (h.bitmap_copy hcopy)
  · intro event hevent buffer hbuffer hother
    have hkept := h.mem_step_of_ne hevent hbuffer hother
    refine ⟨hkept, fun i hin ↦ ?_⟩
    rw [(h.step hevent).holds buffer hkept i hin, h.holds buffer hbuffer i hin]

/-- A run of two clients: after their first two requests both have a buffer. -/
theorem buffers_of_run_two_clients :
    let events : List (Event Nat) := [.request 0 (.allocate 8 24), .request 1 (.allocate 8 8),
      .request 1 (.release 536 8 8), .copy 0 (.write .uint8 513 [7])]
    let session := run ⟨Heap.zeroed, []⟩ (events.take 2)
    Heap.zeroed.Fresh ∧ AdmitsAll step Admits ⟨Heap.zeroed, []⟩ events ∧
      events.take 2 <+: events ∧
      session.buffers.map Buffer.allocation = [⟨536, 8⟩, ⟨512, 24⟩] ∧
      (∀ buffer ∈ session.buffers, ∀ i, buffer.Holds i 1 →
        ∃ byte, session.heap.region.bytes[i]? = some byte ∧ buffer.contents i = some byte) ∧
      (∀ client copy, session.Admits (.copy client copy) →
        ∀ index, (session.step (.copy client copy)).heap.word? index = session.heap.word? index) ∧
      ∀ event, session.Admits event →
        ∀ buffer ∈ session.buffers, buffer.client ≠ event.client →
          buffer ∈ (session.step event).buffers ∧ ∀ i, buffer.Holds i 1 →
            (session.step event).heap.region.bytes[i]? = session.heap.region.bytes[i]? := by
  intro events session
  obtain ⟨hadmits, hbuffers⟩ := admitsAll_two_clients Heap.bitmap_zeroed
  have hprefix : events.take 2 <+: events := List.take_prefix _ _
  exact ⟨Or.inl rfl, hadmits, hprefix, hbuffers, buffers_of_run (Or.inl rfl) hadmits hprefix⟩

end Run

end Session

end Session

end LinearHeap
