import Mathlib.Data.List.Sort

/-! # Finite maps in key order

A finite map kept as its entries in ascending order of keys. The order is part of the type, so a map is
determined by its lookups (`OrderedMap.ext`), and going through the entries visits the keys in order.
-/

namespace Socat

open List

universe u v

/-- Entries in strictly ascending order of their keys. -/
structure OrderedMap (κ : Type u) (ν : Type v) [LinearOrder κ] where
  entries : List (κ × ν)
  ascending : entries.Pairwise fun a b => a.1 < b.1

namespace OrderedMap

variable {κ : Type u} {ν : Type v} [LinearOrder κ]

instance [DecidableEq ν] : DecidableEq (OrderedMap κ ν) := fun a b =>
  decidable_of_iff (a.entries = b.entries) ⟨fun same => by cases a; cases b; cases same; rfl, congrArg _⟩

instance : EmptyCollection (OrderedMap κ ν) := ⟨⟨[], .nil⟩⟩

/-- The value under a key in a list of entries. -/
def find (key : κ) (entries : List (κ × ν)) : Option ν :=
  (entries.find? fun entry => entry.1 = key).map Prod.snd

def lookup (m : OrderedMap κ ν) (key : κ) : Option ν := find key m.entries

/-- Put an entry in its place, over one with the same key. -/
def place (key : κ) (value : ν) : List (κ × ν) → List (κ × ν)
  | [] => [(key, value)]
  | entry :: rest =>
    if entry.1 < key then entry :: place key value rest
    else if entry.1 = key then (key, value) :: rest
    else (key, value) :: entry :: rest

private theorem mem_place {key : κ} {value : ν} {entries : List (κ × ν)} {entry : κ × ν}
    (listed : entry ∈ place key value entries) : entry = (key, value) ∨ entry ∈ entries := by
  induction entries with
  | nil => exact .inl (mem_singleton.mp listed)
  | cons first rest ih =>
    unfold place at listed
    split_ifs at listed
    · rcases mem_cons.mp listed with same | later
      · exact .inr (same ▸ mem_cons_self)
      · exact (ih later).imp_right (mem_cons_of_mem _)
    · exact (mem_cons.mp listed).imp_right (mem_cons_of_mem _)
    · exact mem_cons.mp listed

private theorem ascending_place {key : κ} {value : ν} {entries : List (κ × ν)}
    (ascending : entries.Pairwise fun a b => a.1 < b.1) :
    (place key value entries).Pairwise fun a b => a.1 < b.1 := by
  induction entries with
  | nil => exact pairwise_singleton _ _
  | cons first rest ih =>
    obtain ⟨above, sorted⟩ := pairwise_cons.mp ascending
    unfold place
    split_ifs with before same
    · refine pairwise_cons.mpr ⟨fun entry listed => ?_, ih sorted⟩
      rcases mem_place listed with rfl | later
      · exact before
      · exact above entry later
    · exact pairwise_cons.mpr ⟨fun entry later => same ▸ above entry later, sorted⟩
    · have after : key < first.1 := lt_of_le_of_ne (not_lt.mp before) (Ne.symm same)
      refine pairwise_cons.mpr ⟨fun entry listed => ?_, ascending⟩
      rcases mem_cons.mp listed with rfl | later
      · exact after
      · exact after.trans (above entry later)

def insert (m : OrderedMap κ ν) (key : κ) (value : ν) : OrderedMap κ ν :=
  ⟨place key value m.entries, ascending_place m.ascending⟩

/-- The entries whose keys pass a test. -/
def filter (m : OrderedMap κ ν) (keep : κ → Bool) : OrderedMap κ ν :=
  ⟨m.entries.filter fun entry => keep entry.1, m.ascending.filter _⟩

@[simp] theorem lookup_empty (key : κ) : (∅ : OrderedMap κ ν).lookup key = none := rfl

theorem find_cons (key : κ) (entry : κ × ν) (rest : List (κ × ν)) :
    find key (entry :: rest) = if entry.1 = key then some entry.2 else find key rest := by
  by_cases same : entry.1 = key <;> simp [find, same]

private theorem find_place (key other : κ) (value : ν) (entries : List (κ × ν)) :
    find other (place key value entries) = if other = key then some value else find other entries := by
  induction entries with
  | nil => simp [place, find, eq_comm]
  | cons first rest ih =>
    unfold place
    by_cases before : first.1 < key
    · rw [if_pos before, find_cons, ih, find_cons]
      by_cases here : first.1 = other
      · rw [if_pos here, if_pos here, if_neg (here ▸ before.ne)]
      · rw [if_neg here, if_neg here]
    · rw [if_neg before]
      by_cases chosen : other = key
      · split <;> simp [find_cons, chosen]
      · split
        · rename_i same
          simp [find_cons, same, Ne.symm chosen]
        · simp [find_cons, Ne.symm chosen]

@[simp] theorem lookup_insert (m : OrderedMap κ ν) (key other : κ) (value : ν) :
    (m.insert key value).lookup other = if other = key then some value else m.lookup other :=
  find_place key other value m.entries

@[simp] theorem lookup_filter (m : OrderedMap κ ν) (keep : κ → Bool) (key : κ) :
    (m.filter keep).lookup key = if keep key then m.lookup key else none := by
  unfold filter lookup find
  rw [find?_filter]
  split_ifs with kept
  · congr 2
    funext entry
    by_cases same : entry.1 = key <;> simp [same, kept]
  · rw [find?_eq_none.mpr]
    · rfl
    · intro entry _ found
      simp only [decide_eq_true_eq] at found
      exact kept (found.2 ▸ found.1)

theorem find_eq_some_iff {entries : List (κ × ν)} (distinct : entries.Pairwise fun a b => a.1 ≠ b.1)
    {key : κ} {value : ν} : find key entries = some value ↔ (key, value) ∈ entries := by
  induction entries with
  | nil => simp [find]
  | cons first rest ih =>
    obtain ⟨apart, later⟩ := pairwise_cons.mp distinct
    rw [find_cons, mem_cons]
    split_ifs with same
    · have elsewhere : (key, value) ∉ rest := fun listed => apart _ listed same
      simp [elsewhere, Prod.ext_iff, same, eq_comm]
    · have different : (key, value) ≠ first := fun equal => same (equal ▸ rfl)
      simp [ih later, different]

theorem distinct (m : OrderedMap κ ν) : m.entries.Pairwise fun a b => a.1 ≠ b.1 :=
  m.ascending.imp fun below => below.ne

theorem lookup_eq_some_iff {m : OrderedMap κ ν} {key : κ} {value : ν} :
    m.lookup key = some value ↔ (key, value) ∈ m.entries := find_eq_some_iff m.distinct

/-- A map is determined by its lookups. -/
@[ext] theorem ext {a b : OrderedMap κ ν} (same : ∀ key, a.lookup key = b.lookup key) : a = b := by
  have ordered : Std.Antisymm fun x y : κ × ν => x.1 < y.1 := ⟨fun _ _ below above => absurd below above.asymm⟩
  have nodup : ∀ m : OrderedMap κ ν, m.entries.Nodup := fun m =>
    m.distinct.imp fun apart equal => apart (congrArg Prod.fst equal)
  have entries : a.entries = b.entries := by
    refine List.Perm.eq_of_pairwise' a.ascending b.ascending ?_
    refine (perm_ext_iff_of_nodup (nodup a) (nodup b)).mpr fun ⟨key, value⟩ => ?_
    rw [← lookup_eq_some_iff, ← lookup_eq_some_iff, same key]
  cases a
  cases b
  cases entries
  rfl

private theorem place_perm {key : κ} {value : ν} {entries : List (κ × ν)} (absent : find key entries = none) :
    (place key value entries).Perm ((key, value) :: entries) := by
  induction entries with
  | nil => exact .refl _
  | cons first rest ih =>
    rw [find_cons] at absent
    split at absent
    · cases absent
    · rename_i different
      unfold place
      rw [if_neg different]
      split
      · exact ((ih absent).cons first).trans (.swap _ _ _)
      · exact .refl _

/-- A new key adds its entry. -/
theorem insert_perm {m : OrderedMap κ ν} {key : κ} (value : ν) (absent : m.lookup key = none) :
    (m.insert key value).entries.Perm ((key, value) :: m.entries) := place_perm absent

/-- The keys of the map from a list of entries are those of the list; an entry with a key of its own is
found. -/
theorem lookup_foldl_insert (entries : List (κ × ν)) (m : OrderedMap κ ν)
    (distinct : entries.Pairwise fun a b => a.1 ≠ b.1) (key : κ) :
    (entries.foldl (fun m entry => m.insert entry.1 entry.2) m).lookup key =
      (find key entries).or (m.lookup key) := by
  induction entries generalizing m with
  | nil => simp [find]
  | cons first rest ih =>
    obtain ⟨apart, later⟩ := pairwise_cons.mp distinct
    rw [foldl_cons, ih _ later, find_cons, lookup_insert]
    by_cases same : first.1 = key
    · have absent : find key rest = none := by
        unfold find
        rw [find?_eq_none.mpr]
        · rfl
        · intro entry listed
          simpa using fun equal => apart entry listed (same.trans equal.symm)
      simp [absent, same]
    · simp [same, Ne.symm same]

/-- Entries in any order make the map they come from. -/
theorem foldl_insert_perm {m : OrderedMap κ ν} {entries : List (κ × ν)} (perm : entries.Perm m.entries) :
    entries.foldl (fun m entry => m.insert entry.1 entry.2) ∅ = m := by
  have apart : entries.Pairwise fun a b => a.1 ≠ b.1 :=
    (perm.pairwise_iff fun different => Ne.symm different).mpr m.distinct
  ext1 key
  rw [lookup_foldl_insert entries ∅ apart key, lookup_empty, Option.or_none]
  refine Option.ext fun value => ?_
  rw [find_eq_some_iff apart, lookup_eq_some_iff, perm.mem_iff]

end OrderedMap

end Socat
