import Mathlib.Data.List.Nodup
import PropertyMarket.Catalog.Metric

/-!
# The columns of a comparison

A comparison has a column for each part of each field: the name of the field, followed by the word
of the part. The words differ in their last two letters, so the column tells its part and its field,
and neither of the two years that are compared is the column of a part.

## Main results

* `Comparison.Part.column_inj` — each column is that of one part of one field
* `Comparison.Part.column_ne_year` — the years are columns of no part
* `Comparison.nodup_columns` — the columns of different fields are different

## Implementation notes

That a column tells its field is not obvious, since a field is named by any text and the name of one
field may be the beginning of another. It is the *end* of a column that is looked at. The words of
the four parts are of different lengths but differ in their last two letters, so these two letters
give the part, and what is left without the word of the part is the field. The same two letters keep
the columns apart from `year` and `base_year`, which end in none of the words.
-/

namespace PropertyMarket

namespace Comparison.Part

variable {part other : Part} {name name' : String}

theorem ending_column (part : Part) (name : String) :
    (part.column name).toList.reverse.take 2 = (Vocabulary.word part).toList.reverse.take 2 := by
  have long : 2 ≤ (Vocabulary.word part).toList.reverse.length := by
    cases part <;> decide
  rw [column, String.toList_append, List.reverse_append, List.take_append_of_le_length long]

/-- Columns are those of one part of one field: no two pairs of a part and a field are written the
same, whatever the names of the fields are. -/
theorem column_inj : part.column name = other.column name' ↔ part = other ∧ name = name' := by
  constructor
  · intro same
    have ending := ending_column part name
    rw [same, ending_column] at ending
    have part_eq : part = other := by
      cases part <;> cases other <;> first | rfl | exact absurd ending (by decide)
    subst part_eq
    refine ⟨rfl, ?_⟩
    rw [column, column, ← String.toList_inj, String.toList_append, String.toList_append,
      String.toList_append, String.toList_append, List.append_assoc, List.append_assoc] at same
    exact String.toList_inj.1 (List.append_cancel_right same)
  · rintro ⟨rfl, rfl⟩
    rfl

/-- A name with another ending than all the words is no column of a part. -/
theorem column_ne_of_ending {column : String}
    (h : ∀ part : Part,
      column.toList.reverse.take 2 ≠ (Vocabulary.word part).toList.reverse.take 2)
    (part : Part) (name : String) : part.column name ≠ column := by
  rintro rfl
  exact h part (ending_column part name)

/-- The name of a part ends in a word of its own, so it is no year. -/
theorem column_ne_year (part : Part) (name : String) :
    part.column name ≠ "year" ∧ part.column name ≠ "base_year" :=
  ⟨column_ne_of_ending (fun part => by cases part <;> decide) part name,
    column_ne_of_ending (fun part => by cases part <;> decide) part name⟩

end Comparison.Part

@[simp] theorem Comparison.mem_parts (part : Part) : part ∈ parts := Vocabulary.mem_members part

/-- Different names have different columns, behind other columns as well if these end in none of
the words. -/
theorem Comparison.nodup_columns {others names : List String} (others_nodup : others.Nodup)
    (ending : ∀ column ∈ others, ∀ part ∈ parts,
      column.toList.reverse.take 2 ≠ (Vocabulary.word part).toList.reverse.take 2)
    (nodup : names.Nodup) :
    (others ++ names.flatMap fun name => parts.map fun part => part.column name).Nodup := by
  have distinct : parts.Nodup := by decide
  refine List.nodup_append.2 ⟨others_nodup, List.nodup_flatMap.2 ⟨?_, ?_⟩, ?_⟩
  · intro name _
    exact distinct.map fun part other same => (Part.column_inj.1 same).1
  · refine nodup.imp fun {name other} differ column hcolumn hother => ?_
    obtain ⟨part, -, rfl⟩ := List.mem_map.1 hcolumn
    obtain ⟨_, -, same⟩ := List.mem_map.1 hother
    exact differ (Part.column_inj.1 same).2.symm
  · intro column hcolumn other hother same
    obtain ⟨name, -, hother⟩ := List.mem_flatMap.1 hother
    obtain ⟨part, -, rfl⟩ := List.mem_map.1 hother
    exact Part.column_ne_of_ending (fun part => ending column hcolumn part (mem_parts part)) part
      name same.symm

end PropertyMarket
