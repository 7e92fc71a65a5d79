import Mathlib
import RvLift.JumpTable

/-!
# Addresses of consecutive words

The addresses of consecutive words, which wrap past the top of the address space, and the entries of
jump tables over them. Up to 2^30 words have addresses of their own.
-/

namespace RvLift

namespace Word

/-- The address of a word as a number. -/
theorem toNat_address (base : Word) (index : Nat) :
    (address base index).toNat = (base.toNat + 4 * index) % 2 ^ 32 := by
  rw [address, BitVec.toNat_add, BitVec.toNat_ofNat]
  omega

/-- The distance of a word from the first one. -/
theorem toNat_address_sub (base : Word) (index : Nat) :
    (address base index - base).toNat = 4 * index % 2 ^ 32 := by
  have distance : address base index - base = BitVec.ofNat 32 (4 * index) := by
    rw [address, BitVec.add_comm, BitVec.add_sub_cancel]
  rw [distance, BitVec.toNat_ofNat]

/-- An address at a distance of whole words is that of a word. -/
theorem address_of_distance {base target : Word} (aligned : (target - base).toNat % 4 = 0) :
    address base ((target - base).toNat / 4) = target := by
  have distance : 4 * ((target - base).toNat / 4) = (target - base).toNat := by omega
  rw [address, distance, BitVec.ofNat_toNat, BitVec.setWidth_eq, BitVec.add_comm,
    BitVec.sub_add_cancel]

/-- Up to 2^30 words have addresses of their own. -/
theorem address_inj {base : Word} {first second : Nat} (firstSmall : first < 2 ^ 30)
    (secondSmall : second < 2 ^ 30) :
    address base first = address base second ↔ first = second := by
  constructor
  · intro same
    have distances := toNat_address_sub base first
    rw [same, toNat_address_sub] at distances
    omega
  · exact congrArg (address base)

/-- Up to 2^30 words, and no more, have addresses of their own, in whatever way addresses are told
apart: the word behind 2^30 others has the address of the first. -/
theorem nodup_map_address_iff {α : Type} {view : Word → α} (injective : view.Injective)
    (base : Word) (count : Nat) :
    ((List.range count).map fun index => view (address base index)).Nodup ↔ count ≤ 2 ^ 30 := by
  constructor
  · intro distinct
    by_contra large
    have inside : 0 ∈ List.range count ∧ 2 ^ 30 ∈ List.range count := by
      rw [List.mem_range, List.mem_range]
      omega
    have repeats : address base 0 = address base (2 ^ 30) := rfl
    have same := List.inj_on_of_nodup_map distinct inside.1 inside.2 (congrArg view repeats)
    omega
  · intro small
    refine List.Nodup.map_on ?_ List.nodup_range
    intro first firstInside second secondInside same
    rw [List.mem_range] at firstInside secondInside
    exact (address_inj (by omega) (by omega)).1 (injective same)

end Word

namespace JumpTable

variable {table : JumpTable} {address : Word} {label : Label}

/-- The addresses with a label are those of the words of the table. -/
theorem lookup?_eq_some_iff_exists :
    table.lookup? address = some label ↔
      label = ⟨address⟩ ∧ ∃ index < table.size, Word.address table.base index = address := by
  rw [lookup?_eq_some_iff]
  constructor
  · rintro ⟨named, aligned, inside⟩
    exact ⟨named, _, inside, Word.address_of_distance aligned⟩
  · rintro ⟨named, index, inside, rfl⟩
    have distance := Word.toNat_address_sub table.base index
    refine ⟨named, by omega, by omega⟩

/-- The entries of a table are the addresses with their labels. -/
theorem mem_entries_iff :
    (address, label) ∈ table.entries ↔ table.lookup? address = some label := by
  rw [lookup?_eq_some_iff_exists, entries, List.mem_map]
  constructor
  · rintro ⟨index, inside, same⟩
    obtain ⟨rfl, rfl⟩ := Prod.mk.injEq .. ▸ same
    exact ⟨rfl, index, List.mem_range.1 inside, rfl⟩
  · rintro ⟨rfl, index, inside, rfl⟩
    exact ⟨index, List.mem_range.2 inside, rfl⟩

end JumpTable

end RvLift
