import Mathlib.Data.List.Basic
import TracedHeap.Address
import TracedHeap.Roots.Pool

/-! # Laws of pools

What a pool of persistent roots holds after a root is added or removed.

1. **Maps**: looking up a key after an insertion or a removal, for keys in any lawful
   order.  A removal needs the entries to be in ascending order (`Ascending`).
2. **Addresses** are lawfully ordered.
3. **Pools**: what `add` and `remove` do to the count and to the descriptor of each
   root, and when they succeed.  A pool is `Sound` if it is in order and records
   no root that is not counted.
-/

namespace TracedHeap

/-! ## Maps -/

namespace AscendingMap

variable {κ α : Type} [Ord κ]

/-- The keys are in ascending order, so that none is there twice. -/
def Ascending (m : AscendingMap κ α) : Prop :=
  m.toList.Pairwise fun a b => compare a.1 b.1 = .lt

theorem ascending_empty : (empty : AscendingMap κ α).Ascending := List.Pairwise.nil

theorem mem_insertIn {key : κ} {value : α} {entry : κ × α} {entries : List (κ × α)}
    (h : entry ∈ insertIn key value entries) :
    entry.1 = key ∨ entry.1 ∈ entries.map (·.1) := by
  induction entries with
  | nil =>
    left
    rw [insertIn, List.mem_singleton] at h
    rw [h]
  | cons head rest ih =>
    rw [List.map_cons, List.mem_cons]
    cases hcmp : compare key head.1 with
    | lt =>
      simp only [insertIn, hcmp, List.mem_cons] at h
      rcases h with rfl | rfl | hrest
      · exact Or.inl rfl
      · exact Or.inr (Or.inl rfl)
      · exact Or.inr (Or.inr (List.mem_map_of_mem hrest))
    | eq =>
      simp only [insertIn, hcmp, List.mem_cons] at h
      rcases h with rfl | hrest
      · exact Or.inr (Or.inl rfl)
      · exact Or.inr (Or.inr (List.mem_map_of_mem hrest))
    | gt =>
      simp only [insertIn, hcmp, List.mem_cons] at h
      rcases h with rfl | hrest
      · exact Or.inr (Or.inl rfl)
      · rcases ih hrest with hkey | hold
        · exact Or.inl hkey
        · exact Or.inr (Or.inr hold)

theorem eraseIn_sublist (key : κ) (entries : List (κ × α)) :
    (eraseIn key entries).Sublist entries := by
  induction entries with
  | nil => exact List.Sublist.refl _
  | cons head rest ih =>
    cases hcmp : compare key head.1 with
    | lt =>
      simp only [eraseIn, hcmp]
      exact List.Sublist.refl _
    | eq =>
      simp only [eraseIn, hcmp]
      exact List.sublist_cons_self _ _
    | gt =>
      simp only [eraseIn, hcmp]
      exact ih.cons_cons _

theorem Ascending.erase {m : AscendingMap κ α} (h : m.Ascending) (key : κ) :
    (m.erase key).Ascending :=
  List.Pairwise.sublist (eraseIn_sublist key m.toList) h

/-- A key that is below the first one is nowhere in the list. -/
theorem findIn_of_lt {key : κ} {entries : List (κ × α)}
    (h : ∀ entry ∈ entries, compare key entry.1 = .lt) : findIn key entries = none := by
  cases entries with
  | nil => rfl
  | cons head rest => simp [findIn, h head List.mem_cons_self]

section Lawful

variable [Std.TransOrd κ]

theorem Ascending.insert {m : AscendingMap κ α} (h : m.Ascending) (key : κ) (value : α) :
    (m.insert key value).Ascending := by
  rcases m with ⟨entries⟩
  show (insertIn key value entries).Pairwise _
  replace h : entries.Pairwise fun a b => compare a.1 b.1 = .lt := h
  induction entries with
  | nil => exact List.pairwise_singleton _ _
  | cons head rest ih =>
    obtain ⟨habove, hrest⟩ := List.pairwise_cons.1 h
    cases hcmp : compare key head.1 with
    | lt =>
      simp only [insertIn, hcmp]
      refine List.pairwise_cons.2 ⟨?_, h⟩
      intro entry hentry
      rcases List.mem_cons.1 hentry with rfl | hentry
      · exact hcmp
      · exact Std.TransCmp.lt_trans hcmp (habove entry hentry)
    | eq =>
      simp only [insertIn, hcmp]
      exact List.pairwise_cons.2 ⟨habove, hrest⟩
    | gt =>
      simp only [insertIn, hcmp]
      refine List.pairwise_cons.2 ⟨?_, ih hrest⟩
      intro entry hentry
      rcases mem_insertIn hentry with hkey | hold
      · rw [hkey]
        exact Std.OrientedCmp.lt_of_gt hcmp
      · obtain ⟨old, hold, hsame⟩ := List.mem_map.1 hold
        rw [← hsame]
        exact habove old hold

variable [Std.LawfulEqOrd κ]

omit [Std.TransOrd κ] in
/-- Keys that compare differently with a third one are not the same. -/
theorem compare_ne_eq {key key' k : κ} (h : compare key k ≠ compare key' k) :
    compare key' key ≠ .eq := by
  intro heq
  cases Std.LawfulEqCmp.eq_of_compare heq
  exact h rfl

theorem findIn_insertIn (key key' : κ) (value : α) (entries : List (κ × α)) :
    findIn key' (insertIn key value entries) =
      if compare key' key = .eq then some value else findIn key' entries := by
  induction entries with
  | nil => cases h : compare key' key <;> simp [insertIn, findIn, h]
  | cons head rest ih =>
    rcases head with ⟨k, a⟩
    cases hcmp : compare key k with
    | lt =>
      -- what is below the new key is below the first one too
      cases h : compare key' key with
      | lt => simp [insertIn, findIn, hcmp, h, Std.TransCmp.lt_trans h hcmp]
      | eq => simp [insertIn, findIn, hcmp, h]
      | gt => simp [insertIn, findIn, hcmp, h]
    | eq =>
      cases Std.LawfulEqCmp.eq_of_compare hcmp
      cases h : compare key' key <;> simp [insertIn, findIn, h]
    | gt =>
      simp only [insertIn, findIn, hcmp, ih]
      cases hcase : compare key' k with
      | lt | eq =>
        have hne : compare key' key ≠ .eq := compare_ne_eq (k := k) (by simp [hcmp, hcase])
        simp [hne]
      | gt => simp

theorem findIn_eraseIn {entries : List (κ × α)}
    (h : entries.Pairwise fun a b => compare a.1 b.1 = .lt) (key key' : κ) :
    findIn key' (eraseIn key entries) =
      if compare key' key = .eq then none else findIn key' entries := by
  induction entries with
  | nil => simp [eraseIn, findIn]
  | cons head rest ih =>
    rcases head with ⟨k, a⟩
    obtain ⟨habove, hrest⟩ := List.pairwise_cons.1 h
    cases hcmp : compare key k with
    | lt =>
      simp only [eraseIn, hcmp]
      by_cases hsame : compare key' key = .eq
      · -- the key is not there at all
        cases Std.LawfulEqCmp.eq_of_compare hsame
        simp [findIn, hcmp]
      · rw [if_neg hsame]
    | eq =>
      cases Std.LawfulEqCmp.eq_of_compare hcmp
      have hbelow : compare key' key ≠ .gt → findIn key' rest = none := by
        intro hle
        apply findIn_of_lt
        intro entry hentry
        cases hcase : compare key' key with
        | lt => exact Std.TransCmp.lt_trans hcase (habove entry hentry)
        | eq => exact Std.TransCmp.lt_of_eq_of_lt hcase (habove entry hentry)
        | gt => exact absurd hcase hle
      cases hcase : compare key' key with
      | lt => simp [eraseIn, findIn, hcase, hbelow]
      | eq => simp [eraseIn, hcase, hbelow]
      | gt => simp [eraseIn, findIn, hcase]
    | gt =>
      simp only [eraseIn, findIn, hcmp, ih hrest]
      cases hcase : compare key' k with
      | lt | eq =>
        have hne : compare key' key ≠ .eq := compare_ne_eq (k := k) (by simp [hcmp, hcase])
        simp [hne]
      | gt => simp

theorem find?_insert (m : AscendingMap κ α) (key key' : κ) (value : α) [DecidableEq κ] :
    (m.insert key value).find? key' = if key' = key then some value else m.find? key' := by
  simp only [find?, insert, findIn_insertIn, Std.LawfulEqCmp.compare_eq_iff_eq]

theorem find?_erase {m : AscendingMap κ α} (h : m.Ascending) (key key' : κ) [DecidableEq κ] :
    (m.erase key).find? key' = if key' = key then none else m.find? key' := by
  simp only [find?, erase, findIn_eraseIn h, Std.LawfulEqCmp.compare_eq_iff_eq]

theorem findIn_eq_some_iff {entries : List (κ × α)}
    (h : entries.Pairwise fun a b => compare a.1 b.1 = .lt) {key : κ} {value : α} :
    findIn key entries = some value ↔ (key, value) ∈ entries := by
  induction entries with
  | nil => simp [findIn]
  | cons head rest ih =>
    rcases head with ⟨k, a⟩
    obtain ⟨habove, hrest⟩ := List.pairwise_cons.1 h
    rw [List.mem_cons, Prod.mk.injEq]
    cases hcmp : compare key k with
    | lt =>
      -- all keys are above this one
      have hne : key ≠ k := by
        rintro rfl
        rw [Std.compare_self] at hcmp
        cases hcmp
      have hnot : (key, value) ∉ rest := by
        intro hmem
        have hself := Std.TransCmp.lt_trans hcmp (habove _ hmem)
        rw [Std.compare_self] at hself
        cases hself
      simp [findIn, hcmp, hne, hnot]
    | eq =>
      cases Std.LawfulEqCmp.eq_of_compare hcmp
      have hnot : (key, value) ∉ rest := by
        intro hmem
        have hself := habove _ hmem
        rw [Std.compare_self] at hself
        cases hself
      simp [findIn, hnot, eq_comm]
    | gt =>
      have hne : key ≠ k := by
        rintro rfl
        rw [Std.compare_self] at hcmp
        cases hcmp
      simp [findIn, hcmp, hne, ih hrest]

theorem find?_eq_some_iff {m : AscendingMap κ α} (h : m.Ascending) {key : κ} {value : α} :
    m.find? key = some value ↔ (key, value) ∈ m.toList :=
  findIn_eq_some_iff h

end Lawful

end AscendingMap

/-! ## Addresses -/

instance : Std.TransOrd Address :=
  inferInstanceAs (Std.TransCmp (compareLex (compareOn Address.rank) (compareOn Address.number)))

instance : Std.LawfulEqOrd Address where
  eq_of_compare := by
    intro a b h
    obtain ⟨hrank, hnumber⟩ := Ordering.then_eq_eq.1 h
    replace hrank : a.rank = b.rank := Nat.compare_eq_eq.1 hrank
    replace hnumber : a.number = b.number := Nat.compare_eq_eq.1 hnumber
    cases a <;> cases b <;> simp_all [Address.rank, Address.number]

/-! ## Pools -/

namespace Pool

variable {D P : Type} [Ord P]

/-- A pool in good order: no root is recorded that is not counted. -/
structure Sound (pool : Pool D P) : Prop where
  ascending : pool.records.Ascending
  counted : ∀ {data record}, pool.records.find? data = some record → 0 < record.count

theorem sound_empty : (empty : Pool D P).Sound :=
  ⟨AscendingMap.ascending_empty, fun h => nomatch h⟩

theorem refcount_of_find? {pool : Pool D P} {data : P} {record : RootRecord D}
    (h : pool.records.find? data = some record) : pool.refcount data = record.count := by
  rw [refcount, h]
  rfl

theorem refcount_of_absent {pool : Pool D P} {data : P} (h : pool.records.find? data = none) :
    pool.refcount data = 0 := by
  rw [refcount, h]
  rfl

theorem descriptor?_eq_some_iff {pool : Pool D P} {data : P} {descriptor : D} :
    pool.descriptor? data = some descriptor ↔
      ∃ record, pool.records.find? data = some record ∧ record.descriptor = descriptor :=
  Option.map_eq_some_iff

/-- A root has a descriptor exactly if it is counted. -/
theorem Sound.refcount_pos_iff {pool : Pool D P} (hsound : pool.Sound) {data : P} :
    0 < pool.refcount data ↔ ∃ descriptor, pool.descriptor? data = some descriptor := by
  cases h : pool.records.find? data with
  | none => simp [refcount, descriptor?, h]
  | some record =>
    refine iff_of_true ?_ ⟨record.descriptor, descriptor?_eq_some_iff.2 ⟨record, h, rfl⟩⟩
    rw [refcount_of_find? h]
    exact hsound.counted h

/-- What has become of a pool that a root was added to. -/
structure Added (data : P) (descriptor : D) [DecidableEq P] (before after : Pool D P) : Prop where
  sound : after.Sound
  refcount : ∀ k, after.refcount k = before.refcount k + if k = data then 1 else 0
  /-- The root is there with the descriptor that it was added with. -/
  added : after.descriptor? data = some descriptor
  /-- All roots that were there still are, this one included. -/
  kept : ∀ {k d}, before.descriptor? k = some d → after.descriptor? k = some d

/-- What has become of a pool that a root was removed from. -/
structure Removed (data : P) [DecidableEq P] (before after : Pool D P) : Prop where
  sound : after.Sound
  refcount : ∀ k, after.refcount k = before.refcount k - if k = data then 1 else 0
  /-- All roots that are still counted are there as before. -/
  kept : ∀ {k d}, before.descriptor? k = some d → 0 < after.refcount k →
    after.descriptor? k = some d

variable [Std.TransOrd P] [Std.LawfulEqOrd P]

/-- The roots that a pool shows are those that have a descriptor. -/
theorem Sound.mem_roots_iff {pool : Pool D P} (hsound : pool.Sound) {data : P} {descriptor : D} :
    (descriptor, data) ∈ pool.roots ↔ pool.descriptor? data = some descriptor := by
  rw [roots, List.mem_map, descriptor?_eq_some_iff]
  constructor
  · rintro ⟨⟨k, record⟩, hmem, heq⟩
    cases heq
    exact ⟨record, (AscendingMap.find?_eq_some_iff hsound.ascending).2 hmem, rfl⟩
  · rintro ⟨record, hfind, rfl⟩
    exact ⟨(data, record), (AscendingMap.find?_eq_some_iff hsound.ascending).1 hfind, rfl⟩

variable [DecidableEq P]

/-- A pool in which one root is recorded anew. -/
theorem Sound.insert {pool : Pool D P} (hsound : pool.Sound) (data : P) {record : RootRecord D}
    (hcount : 0 < record.count) : Sound ⟨pool.records.insert data record⟩ := by
  refine ⟨hsound.ascending.insert data record, ?_⟩
  intro k r hfind
  simp only [AscendingMap.find?_insert] at hfind
  by_cases hk : k = data
  · rw [if_pos hk] at hfind
    cases hfind
    exact hcount
  · rw [if_neg hk] at hfind
    exact hsound.counted hfind

theorem Added.of_insert {pool : Pool D P} (hsound : pool.Sound) {data : P} {descriptor : D}
    {count : Nat} (hcount : count = pool.refcount data + 1)
    (hsame : ∀ d, pool.descriptor? data = some d → d = descriptor) :
    Added data descriptor pool ⟨pool.records.insert data ⟨descriptor, count⟩⟩ := by
  constructor
  case sound =>
    have hpos : 0 < count := by omega
    exact hsound.insert data hpos
  case refcount =>
    intro k
    simp only [Pool.refcount, AscendingMap.find?_insert]
    by_cases hk : k = data
    · rw [if_pos hk, if_pos hk, hk]
      exact hcount
    · rw [if_neg hk, if_neg hk]
      rfl
  case added => simp [Pool.descriptor?, AscendingMap.find?_insert]
  case kept =>
    intro k d hd
    simp only [Pool.descriptor?, AscendingMap.find?_insert]
    by_cases hk : k = data
    · -- if the root was there, it was with the same descriptor
      rw [if_pos hk]
      rw [hk] at hd
      exact congrArg some (hsame d hd).symm
    · rw [if_neg hk]
      exact hd

/-- A root that is counted for the last time goes. -/
theorem Removed.of_erase {pool : Pool D P} (hsound : pool.Sound) {data : P}
    (hlast : pool.refcount data - 1 = 0) :
    Removed data pool ⟨pool.records.erase data⟩ := by
  constructor
  case sound =>
    refine ⟨hsound.ascending.erase data, ?_⟩
    intro k r hk
    simp only [AscendingMap.find?_erase hsound.ascending] at hk
    by_cases hkey : k = data
    · rw [if_pos hkey] at hk
      cases hk
    · rw [if_neg hkey] at hk
      exact hsound.counted hk
  case refcount =>
    intro k
    simp only [Pool.refcount, AscendingMap.find?_erase hsound.ascending]
    by_cases hk : k = data
    · rw [if_pos hk, if_pos hk, hk]
      exact hlast.symm
    · rw [if_neg hk, if_neg hk]
      rfl
  case kept =>
    intro k d hd hk
    simp only [Pool.refcount, Pool.descriptor?, AscendingMap.find?_erase hsound.ascending] at hk ⊢
    by_cases hkey : k = data
    · -- the root itself is no longer counted
      rw [if_pos hkey] at hk
      cases hk
    · rw [if_neg hkey]
      exact hd

/-- A root that is counted several times is counted once less. -/
theorem Removed.of_insert {pool : Pool D P} (hsound : pool.Sound) {data : P}
    {record : RootRecord D} (hfind : pool.records.find? data = some record)
    (hmore : record.count - 1 ≠ 0) :
    Removed data pool ⟨pool.records.insert data { record with count := record.count - 1 }⟩ := by
  constructor
  case sound => exact hsound.insert data (Nat.pos_of_ne_zero hmore)
  case refcount =>
    intro k
    simp only [Pool.refcount, AscendingMap.find?_insert]
    by_cases hk : k = data
    · rw [if_pos hk, if_pos hk, hk, hfind]
      rfl
    · rw [if_neg hk, if_neg hk]
      rfl
  case kept =>
    intro k d hd _
    simp only [Pool.descriptor?, AscendingMap.find?_insert]
    by_cases hk : k = data
    · rw [if_pos hk]
      rw [hk, Pool.descriptor?, hfind] at hd
      exact hd
    · rw [if_neg hk]
      exact hd

theorem add_eq_ok [BEq D] [LawfulBEq D] {pool pool' : Pool D P} (hsound : pool.Sound) {data : P}
    {descriptor : D} (h : pool.add data descriptor = .ok pool') :
    Added data descriptor pool pool' := by
  cases hfind : pool.records.find? data with
  | none =>
    simp only [add, hfind] at h
    cases h
    apply Added.of_insert hsound (by rw [refcount_of_absent hfind])
    intro d hd
    rw [descriptor?, hfind] at hd
    cases hd
  | some record =>
    simp only [add, hfind] at h
    split at h
    · rename_i hsame
      have hdescriptor : record.descriptor = descriptor := eq_of_beq hsame
      obtain ⟨count, hadd, hinsert⟩ := except_bind_eq_ok_iff.1 h
      obtain ⟨_, hcount⟩ := Word.add_eq_ok_iff.1 hadd
      cases hinsert
      rw [hdescriptor]
      apply Added.of_insert hsound (by rw [refcount_of_find? hfind, hcount])
      intro d hd
      rw [descriptor?, hfind] at hd
      rw [← Option.some.inj hd]
      exact hdescriptor
    · -- a root is not added with two descriptors
      cases h

/-- A root that is counted can be removed. -/
theorem remove_of_refcount_pos {pool : Pool D P} (hsound : pool.Sound) {data : P}
    (hpos : 0 < pool.refcount data) :
    ∃ pool', pool.remove data = .ok pool' ∧ Removed data pool pool' := by
  cases hfind : pool.records.find? data with
  | none =>
    rw [refcount_of_absent hfind] at hpos
    cases hpos
  | some record =>
    simp only [remove, hfind]
    by_cases hlast : record.count - 1 = 0
    · rw [if_pos hlast]
      refine ⟨_, rfl, Removed.of_erase hsound ?_⟩
      rw [refcount_of_find? hfind]
      exact hlast
    · rw [if_neg hlast]
      exact ⟨_, rfl, Removed.of_insert hsound hfind hlast⟩

end Pool

end TracedHeap
