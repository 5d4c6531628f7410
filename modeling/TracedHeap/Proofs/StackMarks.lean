import Mathlib.Data.List.Induction
import Mathlib.Data.List.Infix
import TracedHeap.Roots.ShadowStack

/-! # Marks of a shadow stack

A mark remembers one stamp, but what it stands for is the whole stack below it.

1. **Runs**: any operations in any order, those that fail included.
2. **Stamps**: they grow from the bottom of a stack to its top, and a new one is
   larger than all before it (`Stamped`).
3. **Two fates of a mark**: as long as the stack has not been lower than a mark, it
   still begins with the entries of then (`Intact`); once it has been lower, the
   entry just below the mark is missing or newer than the mark, for good (`Lost`).

The main statement is `popTo_mark_iff_never_below`.
-/

namespace TracedHeap

namespace ShadowStack

variable {D P : Type}

/-! ## Runs -/

/-- One operation on a stack. -/
inductive Operation (D P : Type) where
  | push (descriptor : D) (data : P)
  /-- Takes a mark, which changes nothing. -/
  | mark
  | popTo (m : StackMark)
  | clear
  deriving DecidableEq, Repr

/-- What comes of a change of a stack: one that fails leaves the stack as it was. -/
def settle (s : ShadowStack D P) :
    Except Fault (ShadowStack D P) → Except Fault Unit × ShadowStack D P
  | .ok changed => (.ok (), changed)
  | .error fault => (.error fault, s)

/-- The outcome of an operation, and the stack that it leaves behind. -/
def perform (s : ShadowStack D P) : Operation D P → Except Fault Unit × ShadowStack D P
  | .push descriptor data => s.settle (s.push descriptor data)
  | .mark => (.ok (), s)
  | .popTo m => s.settle (s.popTo m)
  | .clear => (.ok (), s.clear)

/-- The stack after some operations, whatever their outcomes. -/
def after (s : ShadowStack D P) (ops : List (Operation D P)) : ShadowStack D P :=
  ops.foldl (fun s op => (s.perform op).2) s

@[simp] theorem after_nil (s : ShadowStack D P) : s.after [] = s := rfl

theorem after_append (s : ShadowStack D P) (ops more : List (Operation D P)) :
    s.after (ops ++ more) = (s.after ops).after more :=
  List.foldl_append

theorem after_concat (s : ShadowStack D P) (ops : List (Operation D P)) (op : Operation D P) :
    s.after (ops ++ [op]) = ((s.after ops).perform op).2 := by
  rw [after_append]
  rfl

/-! ## What one operation can do -/

theorem popTo_eq_ok {s t : ShadowStack D P} {m : StackMark} (h : s.popTo m = .ok t) :
    t = { s with entries := s.entries.take m.height } := by
  unfold popTo at h
  split at h
  · cases h
  · split at h
    · exact (Except.ok.inj h).symm
    · cases h

theorem push_eq_ok {s t : ShadowStack D P} {descriptor : D} {data : P}
    (h : s.push descriptor data = .ok t) :
    t = ⟨s.entries ++ [⟨descriptor, data, s.nextStamp⟩], s.nextStamp + 1⟩ := by
  obtain ⟨next, hnext, hpushed⟩ := except_bind_eq_ok_iff.1 h
  obtain ⟨_, rfl⟩ := Word.add_eq_ok_iff.1 hnext
  exact (Except.ok.inj hpushed).symm

/-- An operation keeps a lower part of the stack, or adds one entry with the next
stamp.  There is nothing else that it can do. -/
theorem perform_cases (s : ShadowStack D P) (op : Operation D P) :
    (∃ n, (s.perform op).2 = { s with entries := s.entries.take n }) ∨
    (∃ descriptor data, (s.perform op).2 =
      ⟨s.entries ++ [⟨descriptor, data, s.nextStamp⟩], s.nextStamp + 1⟩) := by
  -- what fails or changes nothing keeps the whole stack
  cases op with
  | push descriptor data =>
    cases h : s.push descriptor data with
    | error fault =>
      left
      exact ⟨s.entries.length, by simp [perform, h, settle]⟩
    | ok t =>
      right
      exact ⟨descriptor, data, by simpa [perform, h, settle] using push_eq_ok h⟩
  | mark =>
    left
    exact ⟨s.entries.length, by simp [perform]⟩
  | popTo m =>
    left
    cases h : s.popTo m with
    | error fault => exact ⟨s.entries.length, by simp [perform, h, settle]⟩
    | ok t => exact ⟨m.height, by simpa [perform, h, settle] using popTo_eq_ok h⟩
  | clear =>
    left
    exact ⟨0, by simp [perform, clear]⟩

/-! ## Stamps -/

/-- The stamps grow from the bottom to the top, and the next one is larger still. -/
structure Stamped (s : ShadowStack D P) : Prop where
  increasing : s.entries.Pairwise fun a b => a.stamp < b.stamp
  below : ∀ e ∈ s.entries, e.stamp < s.nextStamp

theorem stamped_empty : (empty : ShadowStack D P).Stamped :=
  ⟨List.Pairwise.nil, fun _ he => nomatch he⟩

theorem Stamped.take {s : ShadowStack D P} (hs : s.Stamped) (n : Nat) :
    ({ s with entries := s.entries.take n }).Stamped :=
  ⟨hs.increasing.sublist (List.take_sublist n _),
    fun e he => hs.below e (List.mem_of_mem_take he)⟩

theorem Stamped.concat {s : ShadowStack D P} (hs : s.Stamped) {e : StackEntry D P}
    (hstamp : e.stamp = s.nextStamp) :
    (⟨s.entries ++ [e], s.nextStamp + 1⟩ : ShadowStack D P).Stamped := by
  constructor
  · -- the new entry is above all others, whose stamps are smaller than the next one
    rw [List.pairwise_append]
    refine ⟨hs.increasing, List.pairwise_singleton _ _, ?_⟩
    intro a ha b hb
    rw [List.mem_singleton] at hb
    rw [hb, hstamp]
    exact hs.below a ha
  · intro a ha
    rcases List.mem_append.1 ha with ha | ha
    · exact Nat.lt_succ_of_lt (hs.below a ha)
    · rw [List.mem_singleton] at ha
      rw [ha, hstamp]
      exact Nat.lt_succ_self _

theorem Stamped.perform {s : ShadowStack D P} (hs : s.Stamped) (op : Operation D P) :
    (s.perform op).2.Stamped := by
  rcases perform_cases s op with ⟨n, h⟩ | ⟨descriptor, data, h⟩
  · rw [h]
    exact hs.take n
  · rw [h]
    exact hs.concat rfl

theorem Stamped.after {s : ShadowStack D P} (hs : s.Stamped) (ops : List (Operation D P)) :
    (s.after ops).Stamped := by
  induction ops using List.reverseRecOn with
  | nil => exact hs
  | append_singleton ops op ih =>
    rw [after_concat]
    exact ih.perform op

theorem nextStamp_le_perform (s : ShadowStack D P) (op : Operation D P) :
    s.nextStamp ≤ (s.perform op).2.nextStamp := by
  rcases perform_cases s op with ⟨n, h⟩ | ⟨descriptor, data, h⟩
  · rw [h]
  · rw [h]
    exact Nat.le_succ _

theorem nextStamp_le_after (s : ShadowStack D P) (ops : List (Operation D P)) :
    s.nextStamp ≤ (s.after ops).nextStamp := by
  induction ops using List.reverseRecOn with
  | nil => exact Nat.le_refl _
  | append_singleton ops op ih =>
    rw [after_concat]
    exact Nat.le_trans ih (nextStamp_le_perform _ op)

/-! ## The two fates of a mark -/

/-- A stack still begins with all entries of an earlier one. -/
def Intact (taken s : ShadowStack D P) : Prop := taken.entries <+: s.entries

/-- The entry just below the top of an earlier stack is gone: its place is empty or
taken by an entry that is newer than that stack. -/
def Lost (taken s : ShadowStack D P) : Prop :=
  0 < taken.height ∧
    ∀ e, s.entries[taken.height - 1]? = some e → taken.nextStamp ≤ e.stamp

/-- An operation that does not go below the earlier stack leaves it intact, and one
that does loses it. -/
theorem Intact.perform {taken s : ShadowStack D P} (h : Intact taken s) (op : Operation D P) :
    (taken.height ≤ (s.perform op).2.height → Intact taken (s.perform op).2) ∧
    ((s.perform op).2.height < taken.height → Lost taken (s.perform op).2) := by
  have hle : taken.entries.length ≤ s.entries.length := h.length_le
  rcases perform_cases s op with ⟨n, hn⟩ | ⟨descriptor, data, hn⟩
  · rw [hn]
    constructor
    · intro hheight
      simp only [height, List.length_take] at hheight
      exact List.prefix_take_iff.2 ⟨h, by omega⟩
    · intro hheight
      refine ⟨by omega, ?_⟩
      intro e he
      -- nothing is left where the topmost entry was
      have hlt := (List.getElem?_eq_some_iff.1 he).1
      simp only [height, List.length_take] at hheight hlt
      omega
  · rw [hn]
    constructor
    · intro _
      exact h.trans (List.prefix_append _ _)
    · intro hheight
      simp only [height, List.length_append, List.length_singleton] at hheight
      omega

/-- What is lost stays lost: only entries with new stamps come in its place. -/
theorem Lost.perform {taken s : ShadowStack D P} (h : Lost taken s)
    (hstamp : taken.nextStamp ≤ s.nextStamp) (op : Operation D P) :
    Lost taken (s.perform op).2 := by
  refine ⟨h.1, ?_⟩
  intro e he
  rcases perform_cases s op with ⟨n, hn⟩ | ⟨descriptor, data, hn⟩
  · -- a lower part has no other entries than the whole
    rw [hn] at he
    simp only [List.getElem?_take] at he
    split at he
    · exact h.2 e he
    · cases he
  · rw [hn] at he
    simp only [List.getElem?_append] at he
    split at he
    · exact h.2 e he
    · rw [List.getElem?_singleton] at he
      split at he
      · -- only a new entry comes into the place, and it carries the next stamp
        cases he
        exact hstamp
      · cases he

/-- Whether a stack has ever been lower decides between the two fates. -/
theorem intact_or_lost (taken : ShadowStack D P) (ops : List (Operation D P)) :
    ((∀ mid, mid <+: ops → taken.height ≤ (taken.after mid).height) ∧
      Intact taken (taken.after ops)) ∨
    ((∃ mid, mid <+: ops ∧ (taken.after mid).height < taken.height) ∧
      Lost taken (taken.after ops)) := by
  induction ops using List.reverseRecOn with
  | nil =>
    left
    refine ⟨?_, List.prefix_refl _⟩
    intro mid hmid
    rw [List.prefix_nil.1 hmid]
    exact Nat.le_refl _
  | append_singleton ops op ih =>
    -- the last operation decides, unless the mark was lost before
    rcases ih with ⟨hnever, hintact⟩ | ⟨⟨mid, hmid, hbelow⟩, hlost⟩
    · rw [after_concat]
      rcases Nat.lt_or_ge ((taken.after ops).perform op).2.height taken.height with hlt | hge
      · right
        refine ⟨⟨ops ++ [op], List.prefix_refl _, ?_⟩, (hintact.perform op).2 hlt⟩
        rwa [after_concat]
      · left
        refine ⟨?_, (hintact.perform op).1 hge⟩
        intro mid hmid
        rcases List.prefix_concat_iff.1 hmid with rfl | hmid
        · rwa [after_concat]
        · exact hnever mid hmid
    · right
      rw [after_concat]
      exact ⟨⟨mid, hmid.trans (List.prefix_append _ _), hbelow⟩,
        hlost.perform (nextStamp_le_after taken ops) op⟩

/-! ## Marks -/

theorem accepts_iff {s : ShadowStack D P} {m : StackMark} :
    s.accepts m = true ↔
      ∀ below, m.height = below + 1 → ∃ e, s.entries[below]? = some e ∧ e.stamp = m.stamp := by
  unfold accepts
  cases m.height with
  | zero => simp
  | succ below =>
    cases h : s.entries[below]? with
    | none => simp [h]
    | some e => simp [h]

theorem height_le_of_accepts {s : ShadowStack D P} {m : StackMark} (h : s.accepts m = true) :
    m.height ≤ s.height := by
  cases hm : m.height with
  | zero => exact Nat.zero_le _
  | succ below =>
    obtain ⟨e, he, -⟩ := accepts_iff.1 h below hm
    exact (List.getElem?_eq_some_iff.1 he).1

theorem popTo_of_accepts {s : ShadowStack D P} {m : StackMark} (h : s.accepts m = true) :
    s.popTo m = .ok { s with entries := s.entries.take m.height } := by
  rw [popTo, if_neg (Nat.not_lt.2 (height_le_of_accepts h)), if_pos h]

/-- What a mark remembers of a stack: the entry at its top. -/
theorem mark_eq {s : ShadowStack D P} {below : Nat} (h : s.mark.height = below + 1) :
    ∃ e, s.entries[below]? = some e ∧ e.stamp = s.mark.stamp := by
  have hlen : s.entries.length = below + 1 := h
  have hlt : below < s.entries.length := by omega
  refine ⟨s.entries[below], List.getElem?_eq_getElem hlt, ?_⟩
  simp [mark, List.getLast?_eq_getElem?, hlen]

theorem accepts_mark (s : ShadowStack D P) : s.accepts s.mark = true := by
  rw [accepts_iff]
  intro below hm
  exact mark_eq hm

/-- Only the entries below a mark decide whether it is accepted. -/
theorem accepts_of_prefix {s s' : ShadowStack D P} {m : StackMark} (h : s.accepts m = true)
    (hsame : s.entries.take m.height <+: s'.entries) : s'.accepts m = true := by
  rw [accepts_iff] at h ⊢
  intro below hm
  obtain ⟨e, he, hstamp⟩ := h below hm
  refine ⟨e, ?_, hstamp⟩
  have htake : (s.entries.take m.height)[below]? = some e := by
    rw [List.getElem?_take_of_lt (by omega)]
    exact he
  -- that entry is among those that are the same
  have hlt : below < (s.entries.take m.height).length := (List.getElem?_eq_some_iff.1 htake).1
  obtain ⟨rest, hrest⟩ := hsame
  rw [← hrest, List.getElem?_append_left hlt]
  exact htake

/-- A mark stays accepted when an entry is pushed. -/
theorem accepts_concat {s : ShadowStack D P} {m : StackMark} (h : s.accepts m = true)
    (e : StackEntry D P) (nextStamp : Nat) :
    (⟨s.entries ++ [e], nextStamp⟩ : ShadowStack D P).accepts m = true := by
  apply accepts_of_prefix h
  exact (List.take_prefix _ _).trans (List.prefix_append _ _)

/-- A mark stays accepted when the stack shrinks, but not below it. -/
theorem accepts_take {s : ShadowStack D P} {m : StackMark} (h : s.accepts m = true) {n : Nat}
    (hle : m.height ≤ n) : ({ s with entries := s.entries.take n }).accepts m = true := by
  apply accepts_of_prefix h
  exact List.take_prefix_take_left hle

theorem accepts_of_intact {taken s : ShadowStack D P} (h : Intact taken s) :
    s.accepts taken.mark = true := by
  apply accepts_of_prefix taken.accepts_mark
  exact (List.take_prefix _ _).trans h

theorem not_accepts_of_lost {taken s : ShadowStack D P} (htaken : taken.Stamped)
    (h : Lost taken s) : s.accepts taken.mark = false := by
  rcases h with ⟨hpos, hnew⟩
  rw [← Bool.not_eq_true, accepts_iff]
  intro haccepts
  have hm : taken.mark.height = taken.height - 1 + 1 := (Nat.sub_add_cancel hpos).symm
  obtain ⟨top, htop, hstamp⟩ := mark_eq hm
  obtain ⟨e, he, hsame⟩ := haccepts _ hm
  -- the entry in that place is newer than the mark, so it has another stamp
  have hge : taken.nextStamp ≤ e.stamp := hnew e he
  have hlt : top.stamp < taken.nextStamp := htaken.below top (List.mem_of_getElem? htop)
  omega

theorem entries_take_of_intact {taken s : ShadowStack D P} (h : Intact taken s) :
    s.entries.take taken.height = taken.entries :=
  (List.prefix_iff_eq_take.1 h).symm

theorem popTo_of_intact {taken s : ShadowStack D P} (h : Intact taken s) :
    s.popTo taken.mark = .ok { s with entries := taken.entries } := by
  have htake : s.entries.take taken.mark.height = taken.entries := entries_take_of_intact h
  rw [popTo_of_accepts (accepts_of_intact h), htake]

/-- The fault of popping back to a mark that a stack has been below. -/
def markFault (s : ShadowStack D P) (m : StackMark) : Fault :=
  if s.height < m.height then .failed (.popAboveTop m.height s.height) else .failed .staleMark

theorem popTo_of_lost {taken s : ShadowStack D P} (htaken : taken.Stamped)
    (h : Lost taken s) : s.popTo taken.mark = .error (s.markFault taken.mark) := by
  have hstale := not_accepts_of_lost htaken h
  unfold popTo markFault
  split
  · rfl
  · rw [hstale]
    rfl

/-- A mark is accepted exactly as long as the stack has not been lower. -/
theorem accepts_mark_iff {taken : ShadowStack D P} (htaken : taken.Stamped)
    (ops : List (Operation D P)) :
    (taken.after ops).accepts taken.mark = true ↔
      ∀ mid, mid <+: ops → taken.height ≤ (taken.after mid).height := by
  rcases intact_or_lost taken ops with ⟨hnever, hintact⟩ | ⟨⟨mid, hmid, hbelow⟩, hlost⟩
  · exact iff_of_true (accepts_of_intact hintact) hnever
  · apply iff_of_false
    · rw [not_accepts_of_lost htaken hlost]
      exact Bool.false_ne_true
    · intro hnever
      have hle := hnever mid hmid
      omega

/-- The law of marks.  Take a mark at any point of any run that starts with the
empty stack.  It is accepted exactly as long as the stack has not been lower since.
Popping back to it then brings back the entries of when it was taken; otherwise it
fails the check of heights if the stack is lower now, and the check for stale marks
if it has grown back, and leaves the stack alone.  A mark that is no longer accepted
never is again.

A push that finds the stamps used up is one of the operations that fail. -/
theorem popTo_mark_iff_never_below (before since : List (Operation D P)) :
    let taken := (empty : ShadowStack D P).after before
    let now := taken.after since
    let neverBelow := ∀ mid, mid <+: since → taken.height ≤ (taken.after mid).height
    (now.accepts taken.mark = true ↔ neverBelow) ∧
    (neverBelow → now.popTo taken.mark = .ok { now with entries := taken.entries }) ∧
    (¬ neverBelow →
      now.popTo taken.mark = .error (now.markFault taken.mark) ∧
      now.perform (.popTo taken.mark) = (.error (now.markFault taken.mark), now)) ∧
    (now.accepts taken.mark = false →
      ∀ more, (now.after more).accepts taken.mark = false) := by
  intro taken now neverBelow
  have htaken : taken.Stamped := stamped_empty.after before
  have haccepts : now.accepts taken.mark = true ↔ neverBelow := accepts_mark_iff htaken since
  refine ⟨haccepts, ?_, ?_, ?_⟩
  · intro hnever
    rcases intact_or_lost taken since with ⟨_, hintact⟩ | ⟨⟨mid, hmid, hbelow⟩, _⟩
    · exact popTo_of_intact hintact
    · have hle := hnever mid hmid
      omega
  · intro hnot
    rcases intact_or_lost taken since with ⟨hnever, _⟩ | ⟨_, hlost⟩
    · exact absurd hnever hnot
    · have hpop : now.popTo taken.mark = .error (now.markFault taken.mark) :=
        popTo_of_lost htaken hlost
      exact ⟨hpop, congrArg now.settle hpop⟩
  · intro hrefused more
    -- a longer run has been below wherever the shorter one has
    rw [← Bool.not_eq_true, ← after_append, accepts_mark_iff htaken]
    intro hnever
    rw [← Bool.not_eq_true, haccepts] at hrefused
    apply hrefused
    intro mid hmid
    exact hnever mid (hmid.trans (List.prefix_append _ _))

/-- A mark that was grown past is accepted; one that the stack was popped below is
stale even though the stack is as high as before. -/
example :
    let stack := (empty : ShadowStack Char Nat).after [.push 'a' 1, .push 'b' 2]
    let regrown := stack.after [.popTo ⟨1, 1⟩, .push 'c' 3]
    (stack.after [.push 'c' 3]).accepts stack.mark = true ∧
      regrown.height = stack.height ∧ regrown.markFault stack.mark = .failed .staleMark := by
  decide

end ShadowStack

end TracedHeap
