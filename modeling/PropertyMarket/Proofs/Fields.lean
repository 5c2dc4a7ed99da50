import Mathlib.Data.List.Nodup
import PropertyMarket.Value

/-!
# Writing and reading fields

A field that is written is what is read under its name, and no other field is read differently. Of
several fields that are written one after the other, the ones of the name decide what is read: if
all of them have one value, that value, and if there are none, what was there before.

## Main results

* `Record.get?_put_of_ne` — other fields are left alone
* `Record.putAll_eq_append` — fields of new names come last, in their order
* `Record.get?_putAll_of_mem`, `Record.get?_putAll_of_forall_ne` — what is read after several writes
* `Record.mem_names_putAll` — which fields there are then

## Implementation notes

A record is a list of named values and may have a name twice; reading finds the first of them, and a
write replaces that one in its place. So a lemma about several writes has to say what becomes of a
name that occurs more than once among them. `get?_putAll_of_mem` asks that all of these have one
value, which is weaker than asking that the name occurs once and is what callers have: the parts of
a row that name a column twice agree in it.
-/

namespace PropertyMarket

namespace Record

variable {r : Record} {name other : String}

theorem get?_put_of_ne (h : other ≠ name) (r : Record) (v : Value) :
    (r.put name v).get? other = r.get? other := by
  have unlike : (other == name) = false := by simpa using h
  induction r with
  | nil => rw [put, get?, List.lookup_cons, unlike]; rfl
  | cons field rest ih =>
    obtain ⟨n, w⟩ := field
    by_cases same : n = name
    · simp [put, get?, same, List.lookup_cons, unlike]
    · rw [put, if_neg same, get?, get?, List.lookup_cons, List.lookup_cons]
      cases other == n with
      | true => rfl
      | false => exact ih

theorem has_eq_isSome (r : Record) (name : String) : r.has name = (r.get? name).isSome := by
  induction r with
  | nil => rfl
  | cons field rest ih =>
    obtain ⟨n, v⟩ := field
    rw [has, List.any_cons, get?, List.lookup_cons, BEq.comm]
    cases name == n with
    | true => rfl
    | false => exact ih

/-! ### Several fields

Writing a list of fields is writing them one after the other, so each lemma is an induction on the
list that uses the law of a single write for its step. -/

theorem put_of_new {row : Record} {name : String} (value : Value)
    (new : ∀ field ∈ row, field.1 ≠ name) : row.put name value = row ++ [(name, value)] := by
  induction row with
  | nil => rfl
  | cons field row ih =>
    rw [put, if_neg (new field List.mem_cons_self),
      ih fun field h => new field (List.mem_cons_of_mem _ h), List.cons_append]

/-- Fields of new names come last, in their order. This needs that no name comes twice, in the
record or among the fields. -/
theorem putAll_eq_append {row fields : Record} (nodup : (row ++ fields).names.Nodup) :
    row.putAll fields = row ++ fields := by
  induction fields generalizing row with
  | nil => exact (List.append_nil row).symm
  | cons field fields ih =>
    have new : ∀ other ∈ row, other.1 ≠ field.1 := by
      intro other hother same
      rw [names, List.map_append, List.nodup_append] at nodup
      exact nodup.2.2 other.1 (List.mem_map_of_mem hother) field.1
        (List.mem_map_of_mem List.mem_cons_self) same
    have regrouped : row ++ field :: fields = (row ++ [field]) ++ fields := by simp
    rw [putAll, List.foldl_cons, put_of_new field.2 new]
    rw [regrouped] at nodup ⊢
    exact ih nodup

/-- What is not written is as before: a name that none of the fields has keeps its value. -/
theorem get?_putAll_of_forall_ne {fields : Record} (h : ∀ field ∈ fields, field.1 ≠ name)
    (r : Record) : (r.putAll fields).get? name = r.get? name := by
  induction fields generalizing r with
  | nil => rfl
  | cons field fields ih =>
    obtain ⟨first, rest⟩ := List.forall_mem_cons.1 h
    rw [putAll, List.foldl_cons]
    exact (ih rest _).trans (get?_put_of_ne (Ne.symm first) r field.2)

/-- What is written with one value has that value, however often it is written and whatever the
record had there before. -/
theorem get?_putAll_of_mem {fields : Record} {value : Value} (mem : (name, value) ∈ fields)
    (once : ∀ field ∈ fields, field.1 = name → field.2 = value) (r : Record) :
    (r.putAll fields).get? name = some value := by
  induction fields generalizing r with
  | nil => nomatch mem
  | cons field fields ih =>
    obtain ⟨first, rest⟩ := List.forall_mem_cons.1 once
    rw [putAll, List.foldl_cons]
    by_cases later : (name, value) ∈ fields
    · exact ih later rest _
    · obtain rfl := (List.mem_cons.1 mem).resolve_right later
      have last : ∀ other ∈ fields, other.1 ≠ name := fun other hother same =>
        later (rest other hother same ▸ same ▸ hother)
      exact (get?_putAll_of_forall_ne last _).trans (get?_put_self r name value)

theorem mem_names_iff {c : String} : c ∈ r.names ↔ (r.get? c).isSome := by
  rw [← has_eq_isSome, has, List.any_eq_true, names, List.mem_map]
  simp

theorem mem_names_put {c : String} {v : Value} :
    c ∈ (r.put name v).names ↔ c ∈ r.names ∨ c = name := by
  rw [mem_names_iff, mem_names_iff]
  obtain rfl | differs := eq_or_ne c name
  · simp [get?_put_self]
  · simp [get?_put_of_ne differs, differs]

/-- The fields after several writes are those before, and what is written, without any other. -/
theorem mem_names_putAll {fields : Record} {c : String} :
    c ∈ (r.putAll fields).names ↔ c ∈ r.names ∨ c ∈ fields.names := by
  induction fields generalizing r with
  | nil => simp [putAll, names]
  | cons field fields ih =>
    rw [putAll, List.foldl_cons]
    refine ih.trans ?_
    rw [mem_names_put, or_assoc]
    simp [names, eq_comm]

end Record

end PropertyMarket
