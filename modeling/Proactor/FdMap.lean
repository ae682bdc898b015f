import Proactor.Descriptor

/-!
# Maps from descriptors

A finite map with at most one entry for each descriptor. The operations are
described through `get?`: an insertion and a removal change the entry of their
own descriptor and no other.
-/

namespace Proactor

/-- A finite map whose keys are descriptors. -/
structure FdMap (α : Type) where
  entries : List (Fd × α)
  nodup : (entries.map Prod.fst).Nodup

namespace FdMap

variable {α : Type}

/-- The map without entries. -/
def empty : FdMap α :=
  ⟨[], List.nodup_nil⟩

/-- The entry of a descriptor. -/
def get? (map : FdMap α) (fd : Fd) : Option α :=
  map.entries.lookup fd

/-- Whether a descriptor has an entry. -/
def contains (map : FdMap α) (fd : Fd) : Bool :=
  (map.get? fd).isSome

/-- The number of descriptors with an entry. -/
def size (map : FdMap α) : Nat :=
  map.entries.length

/-- The values of all entries. -/
def values (map : FdMap α) : List α :=
  map.entries.map Prod.snd

/-- The entries of all other descriptors. -/
private def others (entries : List (Fd × α)) (fd : Fd) : List (Fd × α) :=
  entries.filter fun entry => entry.1 ≠ fd

/-- Leaving a key out keeps the keys distinct. -/
private theorem nodup_others {entries : List (Fd × α)}
    (h : (entries.map Prod.fst).Nodup) (fd : Fd) :
    ((others entries fd).map Prod.fst).Nodup :=
  h.sublist (List.filter_sublist.map _)

/-- A key that is left out does not occur any more. -/
private theorem not_mem_others (entries : List (Fd × α)) (fd : Fd) :
    fd ∉ (others entries fd).map Prod.fst := by
  simp [others]

/-- Remove the entry of a descriptor. -/
def erase (map : FdMap α) (fd : Fd) : FdMap α :=
  ⟨others map.entries fd, nodup_others map.nodup fd⟩

/-- Give a descriptor an entry in place of the one it had. -/
def insert (map : FdMap α) (fd : Fd) (value : α) : FdMap α :=
  ⟨(fd, value) :: others map.entries fd,
    List.nodup_cons.mpr ⟨not_mem_others _ _, nodup_others map.nodup fd⟩⟩

/-- Nothing is found under a key that is left out. -/
private theorem lookup_others_same (entries : List (Fd × α)) (fd : Fd) :
    (others entries fd).lookup fd = none := by
  induction entries with
  | nil => rfl
  | cons entry rest ih =>
      by_cases h : entry.1 = fd
      · simpa [others, h] using ih
      · have hne : (fd == entry.1) = false := by simpa using Ne.symm h
        have hothers : others (entry :: rest) fd = entry :: others rest fd := by
          simp [others, h]
        rw [hothers, List.lookup_cons, hne]
        exact ih

/-- Leaving a key out hides no other key. -/
private theorem lookup_others_other (entries : List (Fd × α)) {fd other : Fd}
    (hne : other ≠ fd) : (others entries fd).lookup other = entries.lookup other := by
  induction entries with
  | nil => rfl
  | cons entry rest ih =>
      obtain ⟨key, value⟩ := entry
      by_cases h : key = fd
      · subst h
        have hkey : (other == key) = false := by simpa using hne
        simpa [others, List.lookup_cons, hkey] using ih
      · by_cases hkey : other = key
        · simp [others, h, hkey]
        · have hbeq : (other == key) = false := by simpa using hkey
          simpa [others, h, List.lookup_cons, hbeq] using ih

/-- Leaving out a key that does not occur changes nothing. -/
private theorem others_of_not_mem {entries : List (Fd × α)} {fd : Fd}
    (h : fd ∉ entries.map Prod.fst) : others entries fd = entries := by
  refine List.filter_eq_self.mpr fun entry hentry => decide_eq_true fun heq => h ?_
  exact heq ▸ List.mem_map_of_mem hentry

/-- The values of a list are the one under a key, if there is one, and those under the other keys.
-/
private theorem perm_others {entries : List (Fd × α)} (h : (entries.map Prod.fst).Nodup)
    (fd : Fd) :
    (entries.map Prod.snd).Perm
      ((entries.lookup fd).toList ++ (others entries fd).map Prod.snd) := by
  induction entries with
  | nil => exact .nil
  | cons entry rest ih =>
      obtain ⟨key, value⟩ := entry
      obtain ⟨hnot, hrest⟩ := List.nodup_cons.mp h
      by_cases hkey : key = fd
      · subst hkey
        have hothers : others ((key, value) :: rest) key = rest := by
          simpa [others] using others_of_not_mem hnot
        simp [hothers]
      · have hbeq : (fd == key) = false := by simpa using Ne.symm hkey
        have hothers : others ((key, value) :: rest) fd = (key, value) :: others rest fd := by
          simp [others, hkey]
        rw [hothers, List.lookup_cons, hbeq]
        exact ((ih hrest).cons value).trans List.perm_middle.symm

/-- With distinct keys an entry is found under its key. -/
private theorem lookup_of_mem {entries : List (Fd × α)} {fd : Fd} {value : α}
    (h : (entries.map Prod.fst).Nodup) (hmem : (fd, value) ∈ entries) :
    entries.lookup fd = some value := by
  induction entries with
  | nil => cases hmem
  | cons entry rest ih =>
      obtain ⟨hnot, hrest⟩ := List.nodup_cons.mp h
      rcases List.mem_cons.mp hmem with rfl | hmem
      · simp
      · have hne : fd ≠ entry.1 := fun heq => hnot (heq ▸ List.mem_map_of_mem hmem)
        have hbeq : (fd == entry.1) = false := by simpa using hne
        rw [List.lookup_cons, hbeq]
        exact ih hrest hmem

/-- An empty map holds nothing. -/
@[simp]
theorem get?_empty (fd : Fd) : (empty : FdMap α).get? fd = none :=
  rfl

/-- What has just been stored under a key is found there. -/
@[simp]
theorem get?_insert_same (map : FdMap α) (fd : Fd) (value : α) :
    (map.insert fd value).get? fd = some value := by
  simp [get?, insert]

/-- Storing a value changes nothing under other keys. -/
theorem get?_insert_other (map : FdMap α) {fd other : Fd} (value : α) (hne : other ≠ fd) :
    (map.insert fd value).get? other = map.get? other := by
  have hbeq : (other == fd) = false := by simpa using hne
  simpa [get?, insert, List.lookup_cons, hbeq] using lookup_others_other map.entries hne

/-- Nothing is found under an erased key. -/
@[simp]
theorem get?_erase_same (map : FdMap α) (fd : Fd) : (map.erase fd).get? fd = none :=
  lookup_others_same _ _

/-- Erasing a key changes nothing under other keys. -/
theorem get?_erase_other (map : FdMap α) {fd other : Fd} (hne : other ≠ fd) :
    (map.erase fd).get? other = map.get? other :=
  lookup_others_other map.entries hne

/-- An insertion replaces whatever entry there is. -/
theorem insert_erase (map : FdMap α) (fd : Fd) (value : α) :
    (map.erase fd).insert fd value = map.insert fd value := by
  simp [insert, erase, others]

/-- Of two values stored under one key the second remains. -/
theorem insert_insert (map : FdMap α) (fd : Fd) (first second : α) :
    (map.insert fd first).insert fd second = map.insert fd second := by
  simp [insert, others]

/-- A stored value takes the place of the one that was under its key. -/
@[simp]
theorem values_insert (map : FdMap α) (fd : Fd) (value : α) :
    (map.insert fd value).values = value :: (map.erase fd).values :=
  rfl

/-- The entries of a map are what can be found in it. -/
theorem mem_entries {map : FdMap α} {fd : Fd} {value : α} :
    (fd, value) ∈ map.entries ↔ map.get? fd = some value := by
  refine ⟨lookup_of_mem map.nodup, fun h => ?_⟩
  obtain ⟨before, after, hentries, -⟩ := List.lookup_eq_some_iff.mp h
  rw [hentries]
  exact List.mem_append_right _ List.mem_cons_self

/-- Every value of a map is the entry of a descriptor. -/
theorem exists_get?_of_mem_values {map : FdMap α} {value : α} (h : value ∈ map.values) :
    ∃ fd, map.get? fd = some value := by
  obtain ⟨⟨fd, _⟩, hentry, rfl⟩ := List.mem_map.mp h
  exact ⟨fd, lookup_of_mem map.nodup hentry⟩

/-- The values of a map are that of one descriptor, if it has an entry, and those of the others. -/
theorem values_perm (map : FdMap α) (fd : Fd) :
    map.values.Perm ((map.get? fd).toList ++ (map.erase fd).values) :=
  perm_others map.nodup fd

end FdMap

end Proactor
