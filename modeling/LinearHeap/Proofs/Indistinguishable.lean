import LinearHeap.Proofs.Calls
import LinearHeap.Proofs.Checked.Requests
import LinearHeap.Proofs.Copies

/-!
# Heaps that cannot be told apart

A heap is asked for space and about its bitmap, and between the questions its callers copy into it
what they like. Two heaps may differ in their length and in every byte of the heap proper, and
different copies may be made into them. If their first pages are the same and so are the questions,
then so are all answers, and the first pages are the same after every step
(`Heap.same_answers_of_same_page`). A region that is made a heap therefore behaves like a region of
zeros, whatever it held.

An answer and the bitmap after it depend on the bitmap before it (`Heap.answer_congr`,
`Heap.bitmap_react_congr`), and a copy that spares the bitmap leaves it as it is. So copies can be
left out of a run (`Heap.answers_eq_ask`), and what remains of the two runs are the same questions.

A heap serves a request by its bitmap as a whole. The same run can be carried out on the region,
where the searches, tests and counts go word by word and a word is read when it is looked at
(`Checked.run`). It gives what the heap gives (`Checked.run_eq`), so two regions that agree on their
first pages cannot be told apart either (`Checked.run_congr`).
-/

set_option autoImplicit false
set_option relaxedAutoImplicit false

namespace LinearHeap

/-- What a heap can be asked: to serve a call, and what its bitmap shows. -/
inductive Question where
  | call (call : Call)
  | word (index : Nat)
  | isAllocated (granule : Nat)
  | allocated
  | free
  deriving DecidableEq, Repr

/-- The answer to a question. Of a call it is everything but the heap that is left: the outcome with
its offset or refusal, and the records. -/
inductive Answer where
  | space (reply : Reply Unit Refusal Nat)
  | release (reply : Reply Unit Refusal Unit)
  | word (word : Option (BitVec Layout.granulesPerPage))
  | isAllocated (isSet : Bool)
  | count (granules : Nat)
  deriving DecidableEq, Repr

/-- The sizes that a question names are numbers of 64 bits. -/
def Question.InRange : Question → Prop
  | .call made => made.requested < UInt64.size ∧ made.returned < UInt64.size
  | .word _ | .isAllocated _ | .allocated | .free => True

instance : (question : Question) → Decidable question.InRange
  | .call _ => inferInstanceAs (Decidable (_ ∧ _))
  | .word _ | .isAllocated _ | .allocated | .free => inferInstanceAs (Decidable True)

/-- What callers do with a heap. -/
inductive Interaction where
  | ask (question : Question)
  | copy (copy : Copy)

namespace Interaction

/-- The questions among some interactions, in their order. -/
def questions : List Interaction → List Question
  | [] => []
  | ask question :: rest => question :: questions rest
  | copy _ :: rest => questions rest

theorem mem_questions_iff {question : Question} {interactions : List Interaction} :
    question ∈ questions interactions ↔ ask question ∈ interactions := by
  induction interactions with
  | nil => exact iff_of_false List.not_mem_nil List.not_mem_nil
  | cons interaction rest ih =>
    cases interaction with
    | ask first => rw [questions, List.mem_cons, List.mem_cons, ih, ask.injEq]
    | copy moved =>
      rw [questions, List.mem_cons, ih, or_iff_right (fun h ↦ nomatch h)]

theorem questions_subset {interactions done : List Interaction} (h : done <+: interactions) :
    questions done ⊆ questions interactions := fun _ hmem ↦
  mem_questions_iff.mpr (h.subset (mem_questions_iff.mp hmem))

/-- The interaction is a question, or a copy that stores nothing in the bitmap. -/
def SparesBitmap : Interaction → Prop
  | ask _ => True
  | copy moved => moved.SparesBitmap

/-- The same questions are asked in the same order. Between them there may be any copies, as long as
none stores anything in the bitmap. -/
structure Alike (interactions others : List Interaction) : Prop where
  questions_eq : questions interactions = questions others
  spares : ∀ interaction ∈ interactions, interaction.SparesBitmap
  spares_other : ∀ interaction ∈ others, interaction.SparesBitmap

end Interaction

namespace Heap

/-- The first page of the region, byte by byte. -/
def page (heap : Heap) : List UInt8 := heap.region.slice 0 Layout.heapStart

/-- The answer to a question. -/
def answer (heap : Heap) : Question → Answer
  | .call (.allocate align size) => .space ((heap.allocate align size).withState ())
  | .call (.resize oldOffset oldSize align newSize) =>
    .space ((heap.resize oldOffset oldSize align newSize).withState ())
  | .call (.release offset size align) => .release ((heap.release offset size align).withState ())
  | .word index => .word (heap.word? index)
  | .isAllocated granule => .isAllocated (heap.isAllocated granule)
  | .allocated => .count heap.allocated
  | .free => .count heap.free

/-- The heap after an interaction. A look at the bitmap leaves it as it is. -/
def react (heap : Heap) : Interaction → Heap
  | .ask (.call call) => (heap.perform call).state
  | .ask (.word _) | .ask (.isAllocated _) | .ask .allocated | .ask .free => heap
  | .copy copy => heap.copy copy

/-- The answers to the questions among some interactions, each given when its turn comes. -/
def answers (heap : Heap) : List Interaction → List Answer
  | [] => []
  | .ask question :: rest => heap.answer question :: (heap.react (.ask question)).answers rest
  | .copy copy :: rest => (heap.react (.copy copy)).answers rest

variable {first second : Heap}

/-- The first page holds the bitmap and nothing else. -/
theorem page_eq_page_iff : first.page = second.page ↔ first.bitmap = second.bitmap := by
  have hpage : ∀ heap : Heap, heap.bitmap.toBytes = heap.page := fun heap ↦
    Bitmap.toBytes_ofBytes (heap.region.length_slice (by
      rw [Nat.zero_add]
      exact heap.heapStart_le))
  constructor
  · exact congrArg Bitmap.ofBytes
  · intro h
    rw [← hpage first, h, hpage second]

/-! ### One step -/

/-- The answer to a request depends on the bitmap alone. -/
theorem withState_serve {ε α : Type} (heap : Heap) (request : Bitmap → Reply Bitmap ε α) :
    (heap.serve request).withState () = (request heap.bitmap).withState () := rfl

theorem answer_congr (h : first.bitmap = second.bitmap) (question : Question) :
    first.answer question = second.answer question := by
  cases question with
  | call call =>
    cases call <;> simp only [answer, allocate, resize, release, withState_serve, h]
  | word index => simp only [answer, word?, h]
  | isAllocated granule => simp only [answer, isAllocated, h]
  | allocated => simp only [answer, allocated, h]
  | free => simp only [answer, free, h]

/-- Heaps with the same bitmap have the same bitmap after the same call. -/
theorem bitmap_perform_congr (h : first.bitmap = second.bitmap) (call : Call) :
    (first.perform call).state.bitmap = (second.perform call).state.bitmap := by
  cases call <;>
    simp only [perform, Reply.map, state_allocate, state_resize, state_release, bitmap_setBitmap, h]

theorem bitmap_react_congr (h : first.bitmap = second.bitmap) (question : Question) :
    (first.react (.ask question)).bitmap = (second.react (.ask question)).bitmap := by
  cases question with
  | call call => exact bitmap_perform_congr h call
  | word _ | isAllocated _ | allocated | free => exact h

/-! ### Runs -/

/-- A run with copies that spare the bitmap is answered like its questions alone, put to any heap
with the same bitmap, and leaves the same bitmap. -/
theorem answers_eq_ask {interactions : List Interaction}
    (hspares : ∀ interaction ∈ interactions, interaction.SparesBitmap)
    (h : first.bitmap = second.bitmap) :
    let questions := (Interaction.questions interactions).map Interaction.ask
    first.answers interactions = second.answers questions ∧
      (interactions.foldl react first).bitmap = (questions.foldl react second).bitmap := by
  induction interactions generalizing first second with
  | nil => exact ⟨rfl, h⟩
  | cons interaction rest ih =>
    obtain ⟨hhead, hrest⟩ := List.forall_mem_cons.mp hspares
    cases interaction with
    | ask question =>
      obtain ⟨hanswers, hbitmap⟩ := ih hrest (bitmap_react_congr h question)
      refine ⟨?_, hbitmap⟩
      rw [answers, answer_congr h question, hanswers]
      rfl
    | copy copy => exact ih hrest ((bitmap_copy hhead).trans h)

/-- Two runs that ask the same questions of heaps with the same bitmap end with the same bitmap. -/
theorem bitmap_foldl_react_congr (h : first.bitmap = second.bitmap)
    {interactions others : List Interaction} (halike : Interaction.Alike interactions others) :
    (interactions.foldl react first).bitmap = (others.foldl react second).bitmap := by
  have hfirst := (answers_eq_ask halike.spares h).2
  have hsecond := (answers_eq_ask halike.spares_other (Eq.refl second.bitmap)).2
  rw [hfirst, hsecond, halike.questions_eq]

/-- Two runs that ask the same questions of heaps with the same bitmap get the same answers. -/
theorem answers_congr (h : first.bitmap = second.bitmap) {interactions others : List Interaction}
    (halike : Interaction.Alike interactions others) :
    first.answers interactions = second.answers others := by
  have hfirst := (answers_eq_ask halike.spares h).1
  have hsecond := (answers_eq_ask halike.spares_other (Eq.refl second.bitmap)).1
  rw [hfirst, hsecond, halike.questions_eq]

end Heap

/-! ### Runs word by word -/

namespace Checked

/-- The answer to a question and the region after it, worked out step by step in the region. -/
def ask (region : Region) : Question → Checked (Answer × Region)
  | .call (.allocate align size) => do
    let reply ← allocate region align size
    return (.space (reply.withState ()), reply.state)
  | .call (.resize oldOffset oldSize align newSize) => do
    let reply ← resize region oldOffset oldSize align newSize
    return (.space (reply.withState ()), reply.state)
  | .call (.release offset size align) => do
    let reply ← release region offset size align
    return (.release (reply.withState ()), reply.state)
  | .word index => do
    let word ← word? region index
    return (.word word, region)
  | .isAllocated granule => do
    let isSet ← isAllocated region granule
    return (.isAllocated isSet, region)
  | .allocated => do
    let granules ← allocated region
    return (.count granules, region)
  | .free => do
    let granules ← free region
    return (.count granules, region)

/-- The answers to the questions among some interactions, and the region after all of them. -/
def run (region : Region) : List Interaction → Checked (List Answer × Region)
  | [] => return ([], region)
  | .ask question :: rest => do
    let (answer, after) ← ask region question
    let (answers, last) ← run after rest
    return (answer :: answers, last)
  | .copy copy :: rest => run (region.copy copy) rest

/-- A question is answered word by word as the heap answers it. -/
theorem ask_eq (heap : Heap) {question : Question} (hrange : question.InRange) :
    ask heap.region question =
      .ok (heap.answer question, (heap.react (.ask question)).region) := by
  cases question with
  | call call =>
    cases call with
    | allocate align size =>
      have hsize : size < UInt64.size := hrange.1
      rw [ask, allocate, resize_eq heap (by decide) hsize]
      rfl
    | resize oldOffset oldSize align newSize =>
      have hold : oldSize < UInt64.size := hrange.2
      have hnew : newSize < UInt64.size := hrange.1
      rw [ask, resize_eq heap hold hnew]
      rfl
    | release offset size align =>
      have hsize : size < UInt64.size := hrange.2
      rw [ask, release_eq heap hsize]
      rfl
  | word index =>
    rw [ask, word?_eq]
    rfl
  | isAllocated granule =>
    rw [ask, isAllocated_eq]
    rfl
  | allocated =>
    rw [ask, allocated_eq]
    rfl
  | free =>
    rw [ask, free_eq]
    rfl

/-- A run word by word ends with the answers and the region of the heap's run. -/
theorem run_eq (heap : Heap) {interactions : List Interaction}
    (hrange : ∀ question ∈ Interaction.questions interactions, question.InRange) :
    run heap.region interactions =
      .ok (heap.answers interactions, (interactions.foldl Heap.react heap).region) := by
  induction interactions generalizing heap with
  | nil => rfl
  | cons interaction rest ih =>
    cases interaction with
    | ask question =>
      obtain ⟨hhead, hrest⟩ := List.forall_mem_cons.mp hrange
      rw [run, ask_eq heap hhead, ok_bind]
      dsimp only
      rw [ih _ hrest]
      rfl
    | copy copy =>
      rw [run, ← heap.region_copy_eq]
      exact ih (heap.copy copy) hrange

/-- Two runs word by word, with the same questions, on regions whose first pages are the same come
to their ends with the same answers, and the first pages are then the same. -/
theorem run_congr {first second : Region} (hfirst : Layout.capacity ≤ first.size)
    (hsecond : Layout.capacity ≤ second.size)
    (hpage : first.slice 0 Layout.heapStart = second.slice 0 Layout.heapStart)
    {interactions others : List Interaction} (halike : Interaction.Alike interactions others)
    (hrange : ∀ question ∈ Interaction.questions interactions, question.InRange) :
    ∃ answers after after', run first interactions = .ok (answers, after) ∧
      run second others = .ok (answers, after') ∧
      after.slice 0 Layout.heapStart = after'.slice 0 Layout.heapStart := by
  have hbitmap : (Heap.mk first hfirst).bitmap = (Heap.mk second hsecond).bitmap :=
    Heap.page_eq_page_iff.mp hpage
  have hother := run_eq ⟨second, hsecond⟩ (halike.questions_eq ▸ hrange)
  rw [← Heap.answers_congr hbitmap halike] at hother
  exact ⟨_, _, _, run_eq ⟨first, hfirst⟩ hrange, hother,
    Heap.page_eq_page_iff.mpr (Heap.bitmap_foldl_react_congr hbitmap halike)⟩

end Checked

theorem Interaction.Alike.of_prefix {interactions others done done' : List Interaction}
    (h : Alike interactions others) (hdone : done <+: interactions) (hdone' : done' <+: others)
    (hquestions : questions done = questions done') : Alike done done' where
  questions_eq := hquestions
  spares := fun interaction hmem ↦ h.spares interaction (hdone.subset hmem)
  spares_other := fun interaction hmem ↦ h.spares_other interaction (hdone'.subset hmem)

namespace Heap

/-- A region that is large enough can be made a heap, and its first page is then that of a heap of
zeros. -/
theorem exists_ofRegion_eq_ok {region : Region} (hsize : Layout.capacity ≤ region.size) :
    ∃ heap, ofRegion region = .ok heap ∧ heap.page = zeroed.page := by
  refine ⟨_, dif_pos hsize, page_eq_page_iff.mpr ?_⟩
  rw [bitmap_setBitmap, bitmap_zeroed]

/-- What a heap does depends on its bitmap alone. Two heaps whose first pages are the same byte for
byte, and of which the same questions are asked in the same order, give the same answers, and at
every point at which both have been asked the same, their first pages are the same; how long the
regions are, what the heap proper holds, and which copies are made into it, does not matter. In
particular a region that is made a heap answers like a heap of zeros, whatever it held. The same is
true of the regions themselves, where the questions are answered word by word, and at each such
point both runs have come that far without a step that is impossible. Assumes: copies that store
nothing in the bitmap; for the runs word by word, sizes of 64 bits. -/
theorem same_answers_of_same_page :
    (∀ first second : Heap, first.page = second.page →
      ∀ interactions others, Interaction.Alike interactions others →
        first.answers interactions = second.answers others ∧
          ∀ done done', done <+: interactions → done' <+: others →
            Interaction.questions done = Interaction.questions done' →
              (done.foldl react first).page = (done'.foldl react second).page) ∧
    (∀ region : Region, Layout.capacity ≤ region.size → ∃ heap, ofRegion region = .ok heap ∧
      heap.page = zeroed.page ∧ ∀ interactions others, Interaction.Alike interactions others →
        heap.answers interactions = zeroed.answers others) ∧
    ∀ first second : Region, Layout.capacity ≤ first.size → Layout.capacity ≤ second.size →
      first.slice 0 Layout.heapStart = second.slice 0 Layout.heapStart →
        ∀ interactions others, Interaction.Alike interactions others →
          (∀ question ∈ Interaction.questions interactions, question.InRange) →
            ∀ done done', done <+: interactions → done' <+: others →
              Interaction.questions done = Interaction.questions done' →
                ∃ answers after after', Checked.run first done = .ok (answers, after) ∧
                  Checked.run second done' = .ok (answers, after') ∧
                  after.slice 0 Layout.heapStart = after'.slice 0 Layout.heapStart := by
  refine ⟨?_, ?_, ?_⟩
  · intro first second hpage interactions others halike
    have hbitmap := page_eq_page_iff.mp hpage
    refine ⟨answers_congr hbitmap halike, fun done done' hdone hdone' hquestions ↦ ?_⟩
    have hsame := halike.of_prefix hdone hdone' hquestions
    exact page_eq_page_iff.mpr (bitmap_foldl_react_congr hbitmap hsame)
  · intro region hsize
    obtain ⟨heap, hok, hpage⟩ := exists_ofRegion_eq_ok hsize
    refine ⟨heap, hok, hpage, fun interactions others halike ↦ ?_⟩
    exact answers_congr (page_eq_page_iff.mp hpage) halike
  · intro _ _ hfirst hsecond hpage _ _ halike hrange _ _ hdone hdone' hquestions
    have hsame := halike.of_prefix hdone hdone' hquestions
    exact Checked.run_congr hfirst hsecond hpage hsame fun question hmem ↦
      hrange question (Interaction.questions_subset hdone hmem)

/-- A region of zeros and a longer one of ones are made heaps. Between a request and a look at the
first word, eight bytes are written into the first heap, right behind the bitmap, and one into the
other, past the end of the first. Both answer alike, and their first pages are the same after the
request. -/
theorem same_answers_of_same_page_ones :
    let ones := Region.filled 33290 255
    let questions : List Question := [.call (.allocate 8 24), .word 0]
    let interactions : List Interaction :=
      [.ask (.call (.allocate 8 24)), .copy (.write .uint64 512 [7]), .ask (.word 0)]
    let others : List Interaction :=
      [.ask (.call (.allocate 8 24)), .copy (.write .uint8 33285 [7]), .ask (.word 0)]
    Layout.capacity ≤ ones.size ∧ Interaction.Alike interactions others ∧
      Interaction.questions interactions = questions ∧
      ∃ heap, ofRegion ones = .ok heap ∧ heap.page = zeroed.page ∧
        heap.answers interactions = zeroed.answers others ∧
          (heap.react (.ask (.call (.allocate 8 24)))).page =
            (zeroed.react (.ask (.call (.allocate 8 24)))).page ∧
          (∀ question ∈ questions, question.InRange) ∧
          ∃ answers after after', Checked.run heap.region interactions = .ok (answers, after) ∧
            Checked.run zeroed.region others = .ok (answers, after') ∧
            after.slice 0 Layout.heapStart = after'.slice 0 Layout.heapStart := by
  intro ones questions interactions others
  have hsize : Layout.capacity ≤ ones.size := by
    simp [ones, Region.size, Region.filled, Layout.capacity_eq]
  have halike : Interaction.Alike interactions others := by
    refine ⟨rfl, ?_, ?_⟩
    · simp only [interactions, List.forall_mem_cons]
      exact ⟨trivial, Or.inr (by decide), trivial, nofun⟩
    · simp only [others, List.forall_mem_cons]
      exact ⟨trivial, Or.inr (by decide), trivial, nofun⟩
  obtain ⟨heap, hok, hpage⟩ := exists_ofRegion_eq_ok hsize
  obtain ⟨hanswers, hpages⟩ :=
    same_answers_of_same_page.1 heap zeroed hpage interactions others halike
  have hrange : ∀ question ∈ questions, question.InRange := by decide
  refine ⟨hsize, halike, rfl, heap, hok, hpage, hanswers, ?_, hrange, ?_⟩
  · exact hpages [.ask (.call (.allocate 8 24))] [.ask (.call (.allocate 8 24))]
      (List.prefix_append _ _) (List.prefix_append _ _) rfl
  · exact same_answers_of_same_page.2.2 heap.region zeroed.region heap.capacity_le
      zeroed.capacity_le hpage interactions others halike hrange interactions others
      (List.prefix_refl _) (List.prefix_refl _) rfl

end Heap

end LinearHeap
