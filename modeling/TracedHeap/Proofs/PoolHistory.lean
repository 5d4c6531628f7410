import Mathlib.Data.List.Induction
import Mathlib.Data.List.Infix
import Mathlib.Data.List.Sort
import Mathlib.Data.Set.Card
import TracedHeap.Proofs.PoolLaws

/-! # The history of a pool

A pool stores one record for each root.  What it says of a root is what the history of
that root says, and no other root has a part in it.

1. **Runs**: additions and removals in any order, those that fail included.
2. **Operations**: what one of them makes of the record of its root (`Operation.act`), and
   that this is all that it does to a pool (`perform_cases`).
3. **Removal in place**: counting down before looking whether the root is there.
4. **Counts**: how often a root was added and removed, against its count.
5. **Descriptors**: the addition that a root is there from.
6. **Independence**: a root's record and the outcomes of the operations on it follow from
   these operations alone, so that operations on different roots may change places.

Descriptors need not be comparable in a lawful way: a root keeps the descriptor that it was
first added with, and another one is a conflict unless that equals it.

The main statement is `pool_follows_history_of_each_root`.
-/

namespace TracedHeap

namespace AscendingMap

variable {κ α : Type} [Ord κ] [Std.TransOrd κ] [Std.LawfulEqOrd κ]

omit [Std.LawfulEqOrd κ] in
/-- No entry is there twice. -/
theorem Ascending.nodup {m : AscendingMap κ α} (h : m.Ascending) : m.toList.Nodup := by
  refine List.Pairwise.imp ?_ h
  rintro a _ hless rfl
  rw [Std.compare_self] at hless
  cases hless

/-- A map is known by the values of its keys. -/
theorem Ascending.ext {m m' : AscendingMap κ α} (h : m.Ascending) (h' : m'.Ascending)
    (hsame : ∀ key, m.find? key = m'.find? key) : m = m' := by
  have hmem : ∀ entry, entry ∈ m.toList ↔ entry ∈ m'.toList := by
    rintro ⟨key, value⟩
    rw [← find?_eq_some_iff h, ← find?_eq_some_iff h', hsame]
  have hperm : m.toList.Perm m'.toList :=
    (List.perm_ext_iff_of_nodup h.nodup h'.nodup).2 hmem
  have hlist : m.toList = m'.toList := by
    refine hperm.eq_of_pairwise ?_ h h'
    intro a b _ _ hab hba
    -- two entries cannot each be below the other
    have hself := Std.TransCmp.lt_trans hab hba
    rw [Std.compare_self] at hself
    cases hself
  rcases m with ⟨entries⟩
  exact congrArg AscendingMap.mk hlist

end AscendingMap

namespace Pool

variable {D P : Type} [Ord P]

/-! ## Runs -/

/-- One operation on a pool. -/
inductive Operation (D P : Type) where
  | add (data : P) (descriptor : D)
  | remove (data : P)
  deriving DecidableEq, Repr

/-- The root that an operation is about. -/
def Operation.root : Operation D P → P
  | .add data _ | .remove data => data

/-- What comes of a change of a pool: one that fails leaves the pool as it was. -/
def settle (pool : Pool D P) : Except Fault (Pool D P) → Except Fault Unit × Pool D P
  | .ok changed => (.ok (), changed)
  | .error fault => (.error fault, pool)

section Runs

variable [BEq D]

/-- The outcome of an operation, and the pool that it leaves behind. -/
def perform (pool : Pool D P) : Operation D P → Except Fault Unit × Pool D P
  | .add data descriptor => pool.settle (pool.add data descriptor)
  | .remove data => pool.settle (pool.remove data)

/-- The pool after some operations, whatever their outcomes. -/
def after (pool : Pool D P) (ops : List (Operation D P)) : Pool D P :=
  ops.foldl (fun pool op => (pool.perform op).2) pool

/-- The outcomes of some operations, each with the operation. -/
def transcript (pool : Pool D P) :
    List (Operation D P) → List (Operation D P × Except Fault Unit)
  | [] => []
  | op :: rest => (op, (pool.perform op).1) :: (pool.perform op).2.transcript rest

theorem after_append (pool : Pool D P) (ops more : List (Operation D P)) :
    pool.after (ops ++ more) = (pool.after ops).after more :=
  List.foldl_append

theorem after_concat (pool : Pool D P) (ops : List (Operation D P)) (op : Operation D P) :
    pool.after (ops ++ [op]) = ((pool.after ops).perform op).2 := by
  rw [after_append]
  rfl

theorem transcript_append (pool : Pool D P) (ops more : List (Operation D P)) :
    pool.transcript (ops ++ more) = pool.transcript ops ++ (pool.after ops).transcript more := by
  induction ops generalizing pool with
  | nil => rfl
  | cons op rest ih =>
    rw [List.cons_append, transcript, ih, transcript, List.cons_append]
    rfl

/-! ## What one operation can do -/

/-- What an operation makes of the record of its root. -/
def Operation.act : Operation D P → Option (RootRecord D) → Except Fault (Option (RootRecord D))
  | .add _ descriptor, none => .ok (some ⟨descriptor, 1⟩)
  | .add _ descriptor, some record =>
    if record.descriptor == descriptor then
      if record.count + 1 < Word.bound then .ok (some { record with count := record.count + 1 })
      else .error .addOverflow
    else .error (.failed .descriptorConflict)
  | .remove _, none => .error (.failed .absentRoot)
  | .remove _, some record =>
    if record.count - 1 = 0 then .ok none
    else .ok (some { record with count := record.count - 1 })

/-- What the action of an operation comes to in a pool: the record of its root is changed,
or nothing is. -/
structure Acted [DecidableEq P] (pool : Pool D P) (op : Operation D P)
    (record : Option (RootRecord D)) : Prop where
  outcome : (pool.perform op).1 = .ok ()
  sound : (pool.perform op).2.Sound
  find? : ∀ k, (pool.perform op).2.records.find? k =
    if k = op.root then record else pool.records.find? k

omit [Ord P] in
theorem Operation.act_add_eq_ok {data : P} {descriptor : D} {old record : Option (RootRecord D)}
    (h : (Operation.add data descriptor).act old = .ok record) :
    ∃ added, record = some added ∧ added.count = (old.map (·.count)).getD 0 + 1 ∧
      added.descriptor = (old.map (·.descriptor)).getD descriptor := by
  cases old with
  | none =>
    cases h
    exact ⟨_, rfl, rfl, rfl⟩
  | some old =>
    rw [act] at h
    split at h
    · split at h
      · cases h
        exact ⟨_, rfl, rfl, rfl⟩
      · cases h
    · cases h

omit [Ord P] in
theorem Operation.act_remove_eq_ok {data : P} {old record : Option (RootRecord D)}
    (h : (Operation.remove (D := D) data).act old = .ok record) :
    ∃ removed, old = some removed ∧ (record.map (·.count)).getD 0 = removed.count - 1 ∧
      ∀ left, record = some left → left.descriptor = removed.descriptor := by
  cases old with
  | none => cases h
  | some old =>
    rw [act] at h
    split at h
    · rename_i hlast
      cases h
      exact ⟨old, rfl, hlast.symm, fun _ h => nomatch h⟩
    · cases h
      exact ⟨old, rfl, rfl, fun left h => by cases h; rfl⟩

section Lawful

variable [Std.TransOrd P] [Std.LawfulEqOrd P] [DecidableEq P] {pool pool' : Pool D P}
  {op : Operation D P}

theorem Acted.of_insert (hsound : pool.Sound) {record : RootRecord D}
    (hcount : 0 < record.count)
    (hperform : pool.perform op = (.ok (), ⟨pool.records.insert op.root record⟩)) :
    Acted pool op (some record) := by
  constructor
  case outcome => rw [hperform]
  case sound =>
    rw [hperform]
    exact hsound.insert op.root hcount
  case find? =>
    intro k
    rw [hperform]
    exact AscendingMap.find?_insert pool.records op.root k record

theorem Acted.of_erase (hsound : pool.Sound) (hlast : pool.refcount op.root - 1 = 0)
    (hperform : pool.perform op = (.ok (), ⟨pool.records.erase op.root⟩)) :
    Acted pool op none := by
  constructor
  case outcome => rw [hperform]
  case sound =>
    rw [hperform]
    exact (Removed.of_erase hsound hlast).sound
  case find? =>
    intro k
    rw [hperform]
    exact AscendingMap.find?_erase hsound.ascending op.root k

theorem perform_add_cases (hsound : pool.Sound) (data : P) (descriptor : D) :
    let op : Operation D P := .add data descriptor
    (∃ fault, op.act (pool.records.find? data) = .error fault ∧
      pool.perform op = (.error fault, pool)) ∨
    ∃ record, op.act (pool.records.find? data) = .ok record ∧ Acted pool op record := by
  intro op
  have hperform : pool.perform op = pool.settle (pool.add data descriptor) := rfl
  cases hfind : pool.records.find? data with
  | none =>
    right
    refine ⟨some ⟨descriptor, 1⟩, rfl, Acted.of_insert hsound Nat.one_pos ?_⟩
    simp only [hperform, add, hfind]
    rfl
  | some record =>
    cases hsame : record.descriptor == descriptor with
    | false =>
      left
      refine ⟨.failed .descriptorConflict, ?_, ?_⟩
      · simp [op, Operation.act, hsame]
      · simp [hperform, add, hfind, hsame, settle]
    | true =>
      by_cases hroom : record.count + 1 < Word.bound
      · right
        have hcount : Word.add record.count 1 = .ok (record.count + 1) :=
          Word.add_eq_ok_iff.2 ⟨hroom, rfl⟩
        refine ⟨some { record with count := record.count + 1 }, ?_,
          Acted.of_insert hsound (Nat.succ_pos _) ?_⟩
        · simp [op, Operation.act, hsame, hroom]
        · simp only [hperform, add, hfind, hsame, hcount]
          rfl
      · left
        have hcount : Word.add record.count 1 = .error .addOverflow := by
          simp only [Word.add, Word.add?, if_neg hroom]
        refine ⟨.addOverflow, ?_, ?_⟩
        · simp [op, Operation.act, hsame, hroom]
        · simp only [hperform, add, hfind, hsame, hcount]
          rfl

theorem perform_remove_cases (hsound : pool.Sound) (data : P) :
    let op : Operation D P := .remove data
    (∃ fault, op.act (pool.records.find? data) = .error fault ∧
      pool.perform op = (.error fault, pool)) ∨
    ∃ record, op.act (pool.records.find? data) = .ok record ∧ Acted pool op record := by
  intro op
  have hperform : pool.perform op = pool.settle (pool.remove data) := rfl
  cases hfind : pool.records.find? data with
  | none =>
    left
    refine ⟨.failed .absentRoot, rfl, ?_⟩
    simp only [hperform, remove, hfind]
    rfl
  | some record =>
    right
    by_cases hlast : record.count - 1 = 0
    · refine ⟨none, ?_, Acted.of_erase hsound ?_ ?_⟩
      · simp only [op, Operation.act, if_pos hlast]
      · show pool.refcount data - 1 = 0
        rw [refcount_of_find? hfind]
        exact hlast
      · simp only [hperform, remove, hfind, if_pos hlast]
        rfl
    · refine ⟨some { record with count := record.count - 1 }, ?_,
        Acted.of_insert hsound (Nat.pos_of_ne_zero hlast) ?_⟩
      · simp only [op, Operation.act, if_neg hlast]
      · simp only [hperform, remove, hfind, if_neg hlast]
        rfl

/-- An operation acts on the record of its root, or fails and changes nothing. -/
theorem perform_cases (hsound : pool.Sound) (op : Operation D P) :
    (∃ fault, op.act (pool.records.find? op.root) = .error fault ∧
      pool.perform op = (.error fault, pool)) ∨
    ∃ record, op.act (pool.records.find? op.root) = .ok record ∧ Acted pool op record := by
  cases op with
  | add data descriptor => exact perform_add_cases hsound data descriptor
  | remove data => exact perform_remove_cases hsound data

theorem Sound.perform (hsound : pool.Sound) (op : Operation D P) :
    (pool.perform op).2.Sound := by
  rcases perform_cases hsound op with ⟨fault, _, hfailed⟩ | ⟨record, _, hacted⟩
  · rw [hfailed]
    exact hsound
  · exact hacted.sound

theorem Sound.after (hsound : pool.Sound) (ops : List (Operation D P)) :
    (pool.after ops).Sound := by
  induction ops using List.reverseRecOn with
  | nil => exact hsound
  | append_singleton ops op ih =>
    rw [after_concat]
    exact ih.perform op

/-- The record that an operation leaves behind; one that fails leaves what it found. -/
def Operation.leave (op : Operation D P) (record : Option (RootRecord D)) :
    Option (RootRecord D) :=
  (op.act record).toOption.getD record

/-- An operation fails exactly if its action on the record does. -/
theorem perform_fst (hsound : pool.Sound) (op : Operation D P) :
    (pool.perform op).1 = (op.act (pool.records.find? op.root)).map fun _ => () := by
  rcases perform_cases hsound op with ⟨fault, hact, hfailed⟩ | ⟨record, hact, hacted⟩
  · rw [hfailed, hact]
    rfl
  · rw [hacted.outcome, hact]
    rfl

/-- An operation sees and changes the record of its root only. -/
theorem find?_perform (hsound : pool.Sound) (op : Operation D P) (k : P) :
    (pool.perform op).2.records.find? k =
      if op.root = k then op.leave (pool.records.find? k) else pool.records.find? k := by
  rcases perform_cases hsound op with ⟨fault, hact, hfailed⟩ | ⟨record, hact, hacted⟩
  · rw [hfailed]
    by_cases hk : op.root = k
    · rw [if_pos hk, Operation.leave, ← hk, hact]
      rfl
    · rw [if_neg hk]
  · rw [hacted.find?]
    by_cases hk : op.root = k
    · rw [if_pos hk.symm, if_pos hk, Operation.leave, ← hk, hact]
      rfl
    · rw [if_neg (Ne.symm hk), if_neg hk]

theorem perform_of_error (hsound : pool.Sound) {fault : Fault}
    (h : (pool.perform op).1 = .error fault) : (pool.perform op).2 = pool := by
  rcases perform_cases hsound op with ⟨_, _, hfailed⟩ | ⟨_, _, hacted⟩
  · rw [hfailed]
  · rw [hacted.outcome] at h
    cases h

omit [Std.TransOrd P] [Std.LawfulEqOrd P] [DecidableEq P] in
/-- As long as the count does not overflow, there is no other reason to fail. -/
theorem add_eq_error_iff {data : P} {descriptor : D}
    (hroom : pool.refcount data + 1 < Word.bound) {fault : Fault} :
    pool.add data descriptor = .error fault ↔
      fault = .failed .descriptorConflict ∧
        ∃ d, pool.descriptor? data = some d ∧ (d == descriptor) = false := by
  cases hfind : pool.records.find? data with
  | none => simp [add, descriptor?, hfind]
  | some record =>
    rw [refcount_of_find? hfind] at hroom
    cases hsame : record.descriptor == descriptor with
    | false =>
      have hadd : pool.add data descriptor = .error (.failed .descriptorConflict) := by
        simp [add, hfind, hsame]
      have hother : ∃ d, pool.descriptor? data = some d ∧ (d == descriptor) = false :=
        ⟨record.descriptor, congrArg (Option.map _) hfind, hsame⟩
      rw [hadd, and_iff_left hother, Except.error.injEq, eq_comm]
    | true =>
      simp only [add, descriptor?, hfind, hsame, Word.add_eq_ok_iff.2 ⟨hroom, rfl⟩]
      simp [bind, Except.bind, pure, Except.pure, hsame]

omit [BEq D] [Std.TransOrd P] [Std.LawfulEqOrd P] [DecidableEq P] in
theorem remove_eq_error_iff {data : P} (hsound : pool.Sound) {fault : Fault} :
    pool.remove data = .error fault ↔
      fault = .failed .absentRoot ∧ pool.refcount data = 0 := by
  cases hfind : pool.records.find? data with
  | none => simp [remove, hfind, refcount_of_absent hfind, eq_comm]
  | some record =>
    have hcount := hsound.counted hfind
    rw [refcount_of_find? hfind]
    simp only [remove, hfind]
    split <;> simp [hcount.ne']

/-! ## Removal in place -/

/-- Removes a root by counting it down before it is looked whether it was there.  There is
no result if a count would pass below zero. -/
def removeInPlace (pool : Pool D P) (data : P) : Option (Except Fault Unit × Pool D P) :=
  match pool.records.find? data with
  | none => some (.error (.failed .absentRoot), pool)
  | some record =>
    if record.count = 0 then none
    else
      let counted : Pool D P :=
        ⟨pool.records.insert data { record with count := record.count - 1 }⟩
      if record.count - 1 = 0 then some (.ok (), ⟨counted.records.erase data⟩)
      else some (.ok (), counted)

theorem removeInPlace_eq (hsound : pool.Sound) (data : P) :
    pool.removeInPlace data = some (pool.perform (.remove data)) := by
  have hperform : pool.perform (.remove data) = pool.settle (pool.remove data) := rfl
  cases hfind : pool.records.find? data with
  | none =>
    simp only [removeInPlace, hperform, remove, hfind]
    rfl
  | some record =>
    have hcount : record.count ≠ 0 := (hsound.counted hfind).ne'
    simp only [removeInPlace, hperform, remove, hfind, if_neg hcount]
    by_cases hlast : record.count - 1 = 0
    · -- the record that was counted down is the one that is taken out
      have herase : (pool.records.insert data { record with count := record.count - 1 }).erase
          data = pool.records.erase data := by
        have hinserted := hsound.ascending.insert data { record with count := record.count - 1 }
        refine (hinserted.erase data).ext (hsound.ascending.erase data) fun key => ?_
        simp only [AscendingMap.find?_erase hinserted, AscendingMap.find?_insert,
          AscendingMap.find?_erase hsound.ascending]
        split <;> rfl
      rw [if_pos hlast, if_pos hlast, herase]
      rfl
    · rw [if_neg hlast, if_neg hlast]
      rfl

/-! ## Counts -/

/-- The root was added. -/
def addsRoot (k : P) : Operation D P × Except Fault Unit → Bool
  | (.add data _, .ok ()) => data = k
  | _ => false

/-- The root was removed. -/
def removesRoot (k : P) : Operation D P × Except Fault Unit → Bool
  | (.remove data, .ok ()) => data = k
  | _ => false

theorem refcount_perform (hsound : pool.Sound) (op : Operation D P) (k : P) :
    (pool.perform op).2.refcount k + (if removesRoot k (op, (pool.perform op).1) then 1 else 0) =
      pool.refcount k + if addsRoot k (op, (pool.perform op).1) then 1 else 0 := by
  rcases perform_cases hsound op with ⟨fault, _, hfailed⟩ | ⟨record, hact, hacted⟩
  · rw [hfailed]
    cases op <;> rfl
  · simp only [refcount, hacted.outcome, hacted.find?]
    by_cases hk : k = op.root
    · subst hk
      rw [if_pos rfl]
      cases op with
      | add data descriptor =>
        obtain ⟨added, rfl, hcount, _⟩ := Operation.act_add_eq_ok hact
        simpa [addsRoot, removesRoot, Operation.root] using hcount
      | remove data =>
        obtain ⟨removed, hfind, hcount, _⟩ := Operation.act_remove_eq_ok hact
        have hpos := hsound.counted hfind
        simp only [addsRoot, removesRoot, Operation.root] at hfind ⊢
        simp [hcount, hfind]
        omega
    · rw [if_neg hk]
      have hother : op.root ≠ k := Ne.symm hk
      cases op with
      | add data descriptor => simp [addsRoot, removesRoot, show data ≠ k from hother]
      | remove data => simp [addsRoot, removesRoot, show data ≠ k from hother]

/-- The count of a root is how often it was added and not removed since. -/
theorem refcount_after (hsound : pool.Sound) (ops : List (Operation D P)) (k : P) :
    (pool.after ops).refcount k + (pool.transcript ops).countP (removesRoot k) =
      pool.refcount k + (pool.transcript ops).countP (addsRoot k) := by
  induction ops using List.reverseRecOn with
  | nil => rfl
  | append_singleton ops op ih =>
    have hstep := refcount_perform (hsound.after ops) op k
    rw [after_concat, transcript_append]
    simp only [List.countP_append, transcript, List.countP_singleton]
    omega

/-! ## Descriptors -/

/-- A root that is counted keeps the descriptor that it is there with. -/
theorem descriptor?_perform (hsound : pool.Sound) {k : P} {d : D}
    (h : pool.descriptor? k = some d) (hthere : 0 < (pool.perform op).2.refcount k) :
    (pool.perform op).2.descriptor? k = some d := by
  rcases perform_cases hsound op with ⟨fault, _, hfailed⟩ | ⟨record, hact, hacted⟩
  · rw [hfailed]
    exact h
  · simp only [refcount, descriptor?, hacted.find?] at h hthere ⊢
    by_cases hk : k = op.root
    · subst hk
      rw [if_pos rfl] at hthere ⊢
      cases op with
      | add data descriptor =>
        obtain ⟨added, rfl, _, hdescriptor⟩ := Operation.act_add_eq_ok hact
        rw [h] at hdescriptor
        exact congrArg some hdescriptor
      | remove data =>
        obtain ⟨removed, hfind, _, hdescriptor⟩ := Operation.act_remove_eq_ok hact
        cases record with
        | none => cases hthere
        | some left =>
          rw [hfind] at h
          rw [← h]
          exact congrArg some (hdescriptor left rfl)
    · rw [if_neg hk]
      exact h

/-- A root that was not there comes with an addition only, and with its descriptor. -/
theorem eq_add_of_absent (hsound : pool.Sound) {k : P} {d : D} (habsent : pool.refcount k = 0)
    (h : (pool.perform op).2.descriptor? k = some d) : op = .add k d := by
  have hnone : pool.records.find? k = none := by
    cases hfind : pool.records.find? k with
    | none => rfl
    | some record =>
      have hcount := hsound.counted hfind
      rw [refcount_of_find? hfind] at habsent
      omega
  rcases perform_cases hsound op with ⟨fault, _, hfailed⟩ | ⟨record, hact, hacted⟩
  · rw [hfailed, descriptor?, hnone] at h
    cases h
  · simp only [descriptor?, hacted.find?] at h
    by_cases hk : k = op.root
    · subst hk
      rw [if_pos rfl] at h
      cases op with
      | add data descriptor =>
        obtain ⟨added, rfl, _, hdescriptor⟩ := Operation.act_add_eq_ok hact
        rw [hnone] at hdescriptor
        cases h
        exact congrArg (Operation.add data) hdescriptor.symm
      | remove data =>
        obtain ⟨removed, hfind, _⟩ := Operation.act_remove_eq_ok hact
        rw [hnone] at hfind
        cases hfind
    · rw [if_neg hk, hnone] at h
      cases h

/-- The root came with an addition, and has been there since. -/
def CameWith (ops : List (Operation D P)) (k : P) (d : D) : Prop :=
  ∃ before since, ops = before ++ .add k d :: since ∧ (empty.after before).refcount k = 0 ∧
    ∀ during, during <+: since → 0 < (empty.after (before ++ .add k d :: during)).refcount k

theorem cameWith_of_descriptor? {ops : List (Operation D P)} {k : P} {d : D}
    (h : (empty.after ops).descriptor? k = some d) : CameWith ops k d := by
  have hsound (ops : List (Operation D P)) := Sound.after (sound_empty (D := D) (P := P)) ops
  induction ops using List.reverseRecOn with
  | nil => cases h
  | append_singleton ops op ih =>
    have hthere : 0 < (empty.after (ops ++ [op])).refcount k :=
      (hsound _).refcount_pos_iff.2 ⟨d, h⟩
    rw [after_concat] at h
    rcases Nat.eq_zero_or_pos ((empty.after ops).refcount k) with habsent | hearlier
    · -- it came just now
      obtain rfl := eq_add_of_absent (hsound ops) habsent h
      refine ⟨ops, [], rfl, habsent, fun during hduring => ?_⟩
      rw [List.prefix_nil.1 hduring]
      exact hthere
    · -- it was there already, with the same descriptor
      obtain ⟨d', hd'⟩ := (hsound ops).refcount_pos_iff.1 hearlier
      have hkept : ((empty.after ops).perform op).2.descriptor? k = some d' :=
        descriptor?_perform (hsound ops) hd' (by rwa [← after_concat])
      obtain rfl : d' = d := Option.some.inj (hkept.symm.trans h)
      obtain ⟨before, since, rfl, habsent, hsince⟩ := ih hd'
      refine ⟨before, since ++ [op], by simp, habsent, fun during hduring => ?_⟩
      rcases List.prefix_concat_iff.1 hduring with rfl | hduring
      · simpa using hthere
      · exact hsince during hduring

theorem CameWith.descriptor? {ops : List (Operation D P)} {k : P} {d : D}
    (h : CameWith ops k d) : (empty.after ops).descriptor? k = some d := by
  have hsound (ops : List (Operation D P)) := Sound.after (sound_empty (D := D) (P := P)) ops
  obtain ⟨before, since, rfl, habsent, hsince⟩ := h
  induction since using List.reverseRecOn with
  | nil =>
    have hthere := hsince [] List.prefix_rfl
    obtain ⟨d', hd'⟩ := (hsound _).refcount_pos_iff.1 hthere
    rw [after_concat] at hd'
    cases eq_add_of_absent (hsound before) habsent hd'
    rwa [after_concat]
  | append_singleton since op ih =>
    have hkept := ih fun during hduring => hsince during (hduring.trans (List.prefix_append _ _))
    have hthere := hsince (since ++ [op]) List.prefix_rfl
    rw [← List.cons_append, ← List.append_assoc, after_concat] at hthere ⊢
    exact descriptor?_perform (hsound _) hkept hthere

/-! ## Independence -/

/-- What some operations leave of the record of their root. -/
def recordAfter (record : Option (RootRecord D)) (ops : List (Operation D P)) :
    Option (RootRecord D) :=
  ops.foldl (fun record op => op.leave record) record

/-- The outcomes of some operations that are all on one root. -/
def recordTranscript (record : Option (RootRecord D)) :
    List (Operation D P) → List (Operation D P × Except Fault Unit)
  | [] => []
  | op :: rest => (op, (op.act record).map fun _ => ()) :: recordTranscript (op.leave record) rest

/-- The record of a root is made by the operations on it. -/
theorem find?_after (hsound : pool.Sound) (ops : List (Operation D P)) (k : P) :
    (pool.after ops).records.find? k =
      recordAfter (pool.records.find? k) (ops.filter fun op => op.root = k) := by
  induction ops generalizing pool with
  | nil => rfl
  | cons op rest ih =>
    have hrest := ih (hsound.perform op)
    rw [find?_perform hsound] at hrest
    show ((pool.perform op).2.after rest).records.find? k = _
    rw [hrest]
    by_cases hk : op.root = k
    · simp [hk, recordAfter]
    · simp [hk]

/-- So are the outcomes of the operations on it. -/
theorem transcript_filter (hsound : pool.Sound) (ops : List (Operation D P)) (k : P) :
    ((pool.transcript ops).filter fun entry => entry.1.root = k) =
      recordTranscript (pool.records.find? k) (ops.filter fun op => op.root = k) := by
  induction ops generalizing pool with
  | nil => rfl
  | cons op rest ih =>
    have hrest := ih (hsound.perform op)
    rw [find?_perform hsound] at hrest
    by_cases hk : op.root = k
    · rw [if_pos hk] at hrest
      simp [transcript, hk, recordTranscript, hrest, perform_fst hsound]
    · rw [if_neg hk] at hrest
      simp [transcript, hk, hrest]

/-- Operations on different roots may change places. -/
theorem after_congr (hsound : pool.Sound) {ops other : List (Operation D P)}
    (hsame : ∀ k, (ops.filter fun op => op.root = k) = other.filter fun op => op.root = k) :
    pool.after ops = pool.after other := by
  have hrecords : (pool.after ops).records = (pool.after other).records := by
    refine (hsound.after ops).ascending.ext (hsound.after other).ascending fun k => ?_
    rw [find?_after hsound, find?_after hsound, hsame]
  exact congrArg Pool.mk hrecords

/-! ## All roots -/

omit [BEq D] [DecidableEq P] in
/-- The roots that are counted are as many as are stored. -/
theorem Sound.size_eq_ncard (hsound : pool.Sound) :
    pool.size = {k | 0 < pool.refcount k}.ncard := by
  classical
  have hnodup : (pool.records.toList.map (·.1)).Nodup := by
    refine List.pairwise_map.2 (hsound.ascending.imp ?_)
    intro a b hless heq
    rw [heq, Std.compare_self] at hless
    cases hless
  have hset : {k | 0 < pool.refcount k} = ((pool.records.toList.map (·.1)).toFinset : Set P) := by
    ext k
    rw [Set.mem_ofPred_eq, hsound.refcount_pos_iff, List.coe_toFinset, Set.mem_ofPred_eq,
      List.mem_map]
    constructor
    · rintro ⟨d, hd⟩
      obtain ⟨record, hfind, _⟩ := descriptor?_eq_some_iff.1 hd
      exact ⟨(k, record), (AscendingMap.find?_eq_some_iff hsound.ascending).1 hfind, rfl⟩
    · rintro ⟨⟨_, record⟩, hmem, rfl⟩
      have hfind := (AscendingMap.find?_eq_some_iff hsound.ascending).2 hmem
      exact ⟨record.descriptor, congrArg (Option.map _) hfind⟩
  rw [hset, Set.ncard_coe_finset, List.toFinset_card_of_nodup hnodup, List.length_map]
  rfl

/-- What a pool says of its roots, by the operations that were performed on an empty one. -/
structure FollowsHistory (ops : List (Operation D P)) : Prop where
  /-- A root is counted as often as it was added and not removed. -/
  count : ∀ k, (empty.after ops).refcount k + (empty.transcript ops).countP (removesRoot k) =
    (empty.transcript ops).countP (addsRoot k)
  /-- It has the descriptor of the addition that it is there from. -/
  descriptor : ∀ k d, (empty.after ops).descriptor? k = some d ↔ CameWith ops k d
  size : (empty.after ops).size = {k | 0 < (empty.after ops).refcount k}.ncard
  /-- The roots are listed in ascending order, each once. -/
  ascending : (empty.after ops).roots.Pairwise fun a b => compare a.2 b.2 = .lt
  roots : ∀ k d, (d, k) ∈ (empty.after ops).roots ↔
    0 < (empty.after ops).refcount k ∧ (empty.after ops).descriptor? k = some d
  listed : (empty.after ops).roots.length = (empty.after ops).size
  /-- The additions that fail are those with another descriptor. -/
  add : ∀ k d fault, (empty.after ops).refcount k + 1 < Word.bound →
    ((empty.after ops).add k d = .error fault ↔ fault = .failed .descriptorConflict ∧
      ∃ d', (empty.after ops).descriptor? k = some d' ∧ (d' == d) = false)
  /-- The removals that fail are those of a root that is not there. -/
  remove : ∀ k fault, (empty.after ops).remove k = .error fault ↔
    fault = .failed .absentRoot ∧ (empty.after ops).refcount k = 0
  /-- An operation that fails changes nothing. -/
  unchanged : ∀ op fault, ((empty.after ops).perform op).1 = .error fault →
    ((empty.after ops).perform op).2 = empty.after ops
  /-- Removal in place, which counts down first, comes to the same and never counts down
  from zero. -/
  inPlace : ∀ k, (empty.after ops).removeInPlace k = some ((empty.after ops).perform (.remove k))
  counted : ∀ k record, (empty.after ops).records.find? k = some record → 0 < record.count
  /-- The operations on each root in their order make the pool and all outcomes. -/
  independent : ∀ other : List (Operation D P),
    (∀ k, (ops.filter fun op => op.root = k) = other.filter fun op => op.root = k) →
    empty.after ops = empty.after other ∧
    ∀ k, ((empty.transcript ops).filter fun entry => entry.1.root = k) =
      (empty.transcript other).filter fun entry => entry.1.root = k

/-- A pool follows the history of each of its roots, after any operations on an empty one,
those that fail included. -/
theorem pool_follows_history_of_each_root (ops : List (Operation D P)) : FollowsHistory ops := by
  have hempty : (empty : Pool D P).Sound := sound_empty
  have hsound := hempty.after ops
  constructor
  case count =>
    intro k
    have hcount := refcount_after hempty ops k
    rwa [show (empty : Pool D P).refcount k = 0 from rfl, Nat.zero_add] at hcount
  case descriptor => exact fun k d => ⟨cameWith_of_descriptor?, CameWith.descriptor?⟩
  case size => exact hsound.size_eq_ncard
  case ascending => exact List.pairwise_map.2 hsound.ascending
  case roots =>
    intro k d
    rw [hsound.mem_roots_iff, hsound.refcount_pos_iff]
    exact ⟨fun h => ⟨⟨d, h⟩, h⟩, fun h => h.2⟩
  case listed => exact List.length_map _
  case add => exact fun k d fault hroom => add_eq_error_iff hroom
  case remove => exact fun k fault => remove_eq_error_iff hsound
  case unchanged => exact fun op fault => perform_of_error hsound
  case inPlace => exact removeInPlace_eq hsound
  case counted => exact fun k record => hsound.counted
  case independent =>
    intro other hsame
    refine ⟨after_congr hempty hsame, fun k => ?_⟩
    rw [transcript_filter hempty, transcript_filter hempty, hsame]

/-- A root that is added twice, conflicts with another descriptor, goes, and comes back with
that one, while another root is added and removed once too often. -/
theorem root_comes_back_with_other_descriptor :
    let calls : List (Operation Char Nat) :=
      [.add 1 'd', .add 1 'd', .add 2 'a', .add 1 'e', .remove 1, .remove 2, .remove 1,
        .remove 2, .add 1 'e']
    let inOrder : List (Operation Char Nat) :=
      [.add 2 'a', .remove 2, .remove 2, .add 1 'd', .add 1 'd', .add 1 'e', .remove 1,
        .remove 1, .add 1 'e']
    (empty.transcript calls).map (·.2) =
      [.ok (), .ok (), .ok (), .error (.failed .descriptorConflict), .ok (), .ok (), .ok (),
        .error (.failed .absentRoot), .ok ()] ∧
    (empty.after calls).roots = [('e', 1)] ∧
    (empty.after calls).size = {k | 0 < (empty.after calls).refcount k}.ncard ∧
    CameWith calls 1 'e' ∧
    (empty.after calls).add 1 'd' = .error (.failed .descriptorConflict) ∧
    empty.after calls = empty.after inOrder := by
  intro calls inOrder
  have hfollows := pool_follows_history_of_each_root calls
  refine ⟨by decide, by decide, hfollows.size, (hfollows.descriptor 1 'e').1 (by decide),
    ?_, ?_⟩
  · exact (hfollows.add 1 'd' _ (by decide)).2 ⟨rfl, 'e', by decide, by decide⟩
  · refine (hfollows.independent inOrder fun k => ?_).1
    by_cases hone : 1 = k
    · subst hone
      rfl
    · by_cases htwo : 2 = k
      · subst htwo
        rfl
      · simp [calls, inOrder, Operation.root, hone, htwo]

end Lawful

end Runs

end Pool

end TracedHeap
