import PropertyMarket.Legend.Statement
import PropertyMarket.Proofs.Erasure
import PropertyMarket.Proofs.Request

/-!
# Data are never part of the text of a statement

Two runs are looked at side by side, whose inputs are the same but for their data: numbers are any
numbers, and texts that are not empty are any such texts. Both runs fail in the same class, or both
give the same text, in which the places of values are numbered and nothing else of them is shown.
The values themselves are only found in the list of parameters, each where its predicate is.

## Main definitions

* `Request.erase`, `Legend.Scope.erase`, `Demand.erase` — an input without its data
* `Demand` — whatever becomes a statement: a request, the statistics of a legend, a bucket
* `Demand.Binds` — the parameters of a request are constants, then filter values, then the page

## Main results

* `Request.statement_erase`, `Legend.statsStatement_erase`, `Legend.countStatement_erase` — the
  form of a statement does not depend on the data
* `Request.binds_of_statement` — filter values are bound in order, each once
* `Demand.noninterference` — both together, of two runs

## Implementation notes

For each part of an input there is a function that erases its data, and a lemma that what is
compiled of the part has the same form with and without them. Put together, these say that a
statement has the form of the statement of the erased input. Two inputs with one erasure so have
statements of one form, because both have the form of the same third.

The parameters are described separately, since the form only says how many there are. That the
constants among them are the same in both runs needs no further argument: they belong to what is
shown, and what is shown does not depend on the data.
-/

namespace PropertyMarket

open Outcome (Agree)

/-! ### Requests without their data

What counts as data of a request are its numbers and its texts for values; the names of fields, of
operators and of sort keys are not data. Lists keep their lengths, and what may be missing is
missing in the erased request as well. -/

/-- A filter without its amounts: only the operation, which decides the form of its condition, is
kept. -/
def NumericFilter.erase : NumericFilter → NumericFilter
  | atLeast _ => atLeast (.int 0)
  | atMost _ => atMost (.int 0)
  | between _ _ => between (.int 0) (.int 0)

/-- A read of a rollup without its data: what is left selects the relation, the columns and the
sort. -/
def FilterState.erase (s : FilterState) : FilterState :=
  { s with
    year := 0
    month := s.month.map fun _ => 0
    inseeCodes := s.inseeCodes.map eraseText
    sections := s.sections.map eraseText
    filters := s.filters.map (List.map fun (name, f) => (name, f.erase))
    limit := 0
    offset := 0 }

/-- A read of a yearly comparison without its data: of the years and the bounds it is kept whether
they are given. -/
def DeltaParams.erase (p : DeltaParams) : DeltaParams :=
  { p with
    year := p.year.map fun _ => 0
    baseYear := p.baseYear.map fun _ => 0
    inseeCodes := p.inseeCodes.map eraseText
    sections := p.sections.map eraseText
    minCurrent := p.minCurrent.map fun _ => 0
    maxCurrent := p.maxCurrent.map fun _ => 0
    minBase := p.minBase.map fun _ => 0
    minDelta := p.minDelta.map fun _ => 0
    minPercent := p.minPercent.map fun _ => 0
    limit := 0
    offset := 0 }

/-- A read of the slopes without its data: the places become stand-ins, as many as there are. -/
def SlopeParams.erase (p : SlopeParams) : SlopeParams :=
  { p with
    inseeCodes := p.inseeCodes.map eraseText
    sections := p.sections.map eraseText
    limit := 0
    offset := 0 }

/-- An operation without its data: all names stay, and the values of its filters go. -/
def Operation.erase : Operation → Operation
  | query q =>
    query { q with
      filters := q.filters.map Predicate.erase
      limit := q.limit.map fun _ => 0
      offset := q.offset.map fun _ => 0 }
  | aggregate q =>
    aggregate { q with
      filters := q.filters.map Predicate.erase
      limit := q.limit.map fun _ => 0 }
  | calculate q =>
    calculate { q with
      filters := q.filters.map Predicate.erase
      limit := q.limit.map fun _ => 0 }

/-- A request without its data, of whatever kind it is. -/
def Request.erase : Request → Request
  | rollup s => rollup s.erase
  | delta p => delta p.erase
  | slope p => slope p.erase
  | sales o => sales o.erase

/-! ### Their predicates

Reads make their predicates from what they are given. Erasing first and making predicates then gives
predicates that are the same without their data as those that are made of the full input. -/

namespace Predicate

theorem erase_erase_ofTexts (field operator : String) (texts : List String) :
    erase ⟨field, operator, .ofTexts (texts.map eraseText)⟩ =
      erase ⟨field, operator, .ofTexts texts⟩ := by
  simp only [erase, Value.ofTexts, Value.erase, Value.eraseItems_eq_map, List.map_map]
  congr 2
  exact List.map_congr_left fun s _ => congrArg Value.text (eraseText_eraseText s)

theorem map_erase_locations (inseeCodes sections : List String) :
    (locations (inseeCodes.map eraseText) (sections.map eraseText)).map erase =
      (locations inseeCodes sections).map erase := by
  have part (field : String) (texts : List String) :
      (if texts.map eraseText = [] then []
        else [(⟨field, "in", .ofTexts (texts.map eraseText)⟩ : Predicate)]).map erase =
      (if texts = [] then [] else [⟨field, "in", .ofTexts texts⟩]).map erase := by
    by_cases h : texts = []
    · simp [h]
    · simp [h, erase_erase_ofTexts]
  rw [locations, locations, List.map_append, List.map_append, part, part]

theorem map_erase_equalsInt? (field : String) (n : Option Int) :
    (equalsInt? field (n.map fun _ => 0)).map erase = (equalsInt? field n).map erase := by
  cases n <;> rfl

/-- Predicates that are there as soon as their amounts are, whatever the amounts. -/
theorem map_erase_amounts {β : Type} (make : β → Double → Predicate)
    (same : ∀ b x y, (make b x).erase = (make b y).erase) (amounts : List (Option Double × β)) :
    ((amounts.map fun a => (a.1.map fun _ => (0 : Double), a.2)).filterMap
        fun a => a.1.map (make a.2)).map erase =
      (amounts.filterMap fun a => a.1.map (make a.2)).map erase := by
  rw [List.filterMap_map, List.map_filterMap, List.map_filterMap]
  refine congrArg (fun f => List.filterMap f amounts) (funext fun a => ?_)
  obtain ⟨_ | x, b⟩ := a
  · rfl
  · exact congrArg some (same b 0 x)

theorem erase_toPredicate (field : String) (f : NumericFilter) :
    (f.erase.toPredicate field).erase = (f.toPredicate field).erase := by
  have amount (a : Amount) : a.toValue.erase = .int 0 := by cases a <;> rfl
  cases f <;> simp [erase, NumericFilter.toPredicate, NumericFilter.erase, NumericFilter.operation,
    NumericFilter.value, Value.erase, Value.eraseItems, amount]

end Predicate

theorem FilterState.map_erase_predicates (s : FilterState) :
    s.erase.allPredicates.map Predicate.erase = s.allPredicates.map Predicate.erase := by
  have filters : s.erase.predicates.map Predicate.erase = s.predicates.map Predicate.erase := by
    unfold predicates erase
    cases s.filters with
    | none => rfl
    | some fs =>
      simp only [Option.map_some, Option.getD_some, List.map_map]
      exact List.map_congr_left fun f _ => Predicate.erase_toPredicate f.1 f.2
  rw [allPredicates, allPredicates]
  simp only [List.map_append, filters]
  congr 2
  · exact congrArg _ (Predicate.map_erase_equalsInt? "month" s.month)
  · exact Predicate.map_erase_locations s.inseeCodes s.sections

theorem DeltaParams.map_erase_bounds (p : DeltaParams) :
    p.erase.bounds.map Predicate.erase = p.bounds.map Predicate.erase :=
  Predicate.map_erase_amounts
    (fun (b : Comparison.Part × String) x => ⟨b.1.column p.metric, b.2, .double x⟩)
    (fun _ _ _ => rfl)
    [(p.minCurrent, .current, "gte"), (p.maxCurrent, .current, "lte"), (p.minBase, .base, "gte"),
      (p.minDelta, .delta, "gte"), (p.minPercent, .percent, "gte")]

theorem DeltaParams.map_erase_predicates (p : DeltaParams) :
    p.erase.allPredicates.map Predicate.erase = p.allPredicates.map Predicate.erase := by
  rw [allPredicates, allPredicates]
  simp only [List.map_append, map_erase_bounds]
  congr 2
  · congr 1
    · exact Predicate.map_erase_locations p.inseeCodes p.sections
    · exact Predicate.map_erase_equalsInt? "year" p.year
  · exact Predicate.map_erase_equalsInt? "base_year" p.baseYear

/-! ### Statements of the same form

A statement is put together from parts whose forms are known to agree: what is shown, the source,
the conditions, the groups, the sort keys, and the two numbers of the page, which are always bound.
-/

/-- Two statements of the same form. -/
def Query.SameForm (q q' : Statement) : Prop := q.form = q'.form

theorem Query.SameForm.symm {q q' : Statement} (h : q.SameForm q') : q'.SameForm q := Eq.symm h

theorem Query.SameForm.trans {q q' q'' : Statement} (h : q.SameForm q') (h' : q'.SameForm q'') :
    q.SameForm q'' := Eq.trans h h'

/-- The form of a read does not depend on the data of its predicates, nor on its page. -/
theorem Relation.read_agree {r : Relation} {sortBy : String} {order : SortOrder}
    {ps ps' : List Predicate} {limit limit' offset offset' : Int}
    (h : ps.map Predicate.erase = ps'.map Predicate.erase) :
    Agree Query.SameForm (r.read sortBy order ps limit offset)
      (r.read sortBy order ps' limit' offset') := by
  refine Agree.bind_same fun sort => ?_
  refine (Predicate.compileAll_agree h).bind fun conditions conditions' forms => ?_
  exact Query.form_eq rfl rfl forms rfl rfl rfl rfl

/-- The form of a grouped selection does not depend on the data of its filters, nor on its page. -/
theorem Statement.grouped_agree {produced : List Produced} {groupBy : List String}
    {ps ps' : List Predicate} {sort : List SortSpec} {limit limit' : Option Int}
    (h : ps.map Predicate.erase = ps'.map Predicate.erase) :
    Agree Query.SameForm (Statement.grouped produced groupBy ps sort limit)
      (Statement.grouped produced groupBy ps' sort limit') := by
  refine Agree.bind_same fun groups => ?_
  refine (Predicate.compileAll_agree h).bind fun conditions conditions' forms => ?_
  refine Agree.bind_same fun sort => ?_
  exact Query.form_eq rfl rfl forms rfl rfl rfl rfl

theorem FilterState.relation_erase (s : FilterState) : s.erase.relation = s.relation := by
  unfold relation grain erase
  cases s.month <;> rfl

/-- The form of the statement of an operation does not depend on its data. -/
theorem Operation.statement_erase (o : Operation) :
    Agree Query.SameForm o.statement o.erase.statement := by
  cases o with
  | query q =>
    refine Agree.bind_same fun shown => ?_
    refine (Predicate.compileAll_agree (Predicate.map_erase_erase q.filters).symm).bind
      fun conditions conditions' forms => ?_
    refine Agree.bind_same fun sort => ?_
    exact Query.form_eq rfl rfl forms rfl rfl rfl rfl
  | aggregate q =>
    refine Agree.bind_same fun produced => ?_
    exact Statement.grouped_agree (Predicate.map_erase_erase q.filters).symm
  | calculate q =>
    refine Agree.bind_same fun produced => ?_
    exact Statement.grouped_agree (Predicate.map_erase_erase q.filters).symm

namespace Request

/-- The form of the statement of a request does not depend on its data. -/
theorem statement_erase (r : Request) : Agree Query.SameForm r.statement r.erase.statement := by
  cases r with
  | rollup s =>
    show Agree Query.SameForm s.statement s.erase.statement
    rw [FilterState.statement_eq, FilterState.statement_eq, s.relation_erase]
    exact Relation.read_agree s.map_erase_predicates.symm
  | delta p => exact Relation.read_agree p.map_erase_predicates.symm
  | slope p =>
    exact Relation.read_agree (Predicate.map_erase_locations p.inseeCodes p.sections).symm
  | sales o => exact o.statement_erase

theorem relation?_erase (r : Request) : r.erase.relation? = r.relation? := by
  cases r with
  | rollup s => exact congrArg some s.relation_erase
  | _ => rfl

theorem groupBy_erase (r : Request) : r.erase.groupBy = r.groupBy := by
  cases r with
  | sales o => cases o <;> rfl
  | _ => rfl

theorem produced_erase (r : Request) : r.erase.produced = r.produced := by
  cases r with
  | sales o => cases o <;> rfl
  | _ => rfl

/-- What is shown does not depend on the data. -/
theorem outputs_eq_of_erase {r r' : Request} (h : r.erase = r'.erase) {q q' : Statement}
    (hq : r.statement = .ok q) (hq' : r'.statement = .ok q') : q.outputs = q'.outputs := by
  obtain ⟨groups, produced, built⟩ := built_of_statement hq
  obtain ⟨groups', produced', built'⟩ := built_of_statement hq'
  have relation : r.relation? = r'.relation? := by
    rw [← relation?_erase r, h, relation?_erase]
  have table : r.table = r'.table := by rw [Request.table, Request.table, relation]
  have family : r.family = r'.family := by rw [Request.family, Request.family, relation]
  have groups_eq : groups = groups' := by
    have hgroups := built.groupBy_eq
    rw [table, family, ← groupBy_erase r, h, groupBy_erase, built'.groupBy_eq] at hgroups
    exact (Except.ok.inj hgroups).symm
  have produced_eq : produced = produced' := by
    have hproduced := built.produced_eq
    rw [← produced_erase r, h, produced_erase, built'.produced_eq] at hproduced
    exact (Except.ok.inj hproduced).symm
  rw [built.outputs_eq, built'.outputs_eq, groups_eq, produced_eq, outputs, outputs, relation]

/-! ### Parameters

The values of a statement are found in its text from left to right. Only three of its parts bind
any: the constants in what is shown, the conditions, and the page at the end. -/

/-- The values of the filters of a request, in the order of the predicates. -/
def filterValues (r : Request) : List Value := r.predicates.flatMap Predicate.operands

/-- The parameters of a page. -/
def pageValues (r : Request) : List Value := .int r.limit :: r.offset.toList.map .int

theorem values_sort {table : Table} {family : Family} {labels : List String}
    {specs : List SortSpec} {keys : List SortKey}
    (h : SortSpec.compileAll table family labels specs = .ok keys) :
    (keys.flatMap fun k => Piece.values k.pieces) = [] := by
  refine List.flatMap_eq_nil_iff.2 fun k hk => ?_
  obtain ⟨s, -, hs⟩ := Outcome.exists_of_mem_mapM h k hk
  obtain ⟨-, rfl⟩ | ⟨c, -, rfl⟩ := SortSpec.compile_eq_ok hs
  · rfl
  · rfl

theorem values_groups {table : Table} {family : Family} {names : List String}
    {groups : List Produced} (h : names.mapM (Produced.groupBy table family) = .ok groups) :
    ((groups.map Produced.term).flatMap fun t => Piece.values t.pieces) = [] := by
  refine List.flatMap_eq_nil_iff.2 fun t ht => ?_
  obtain ⟨p, hp, rfl⟩ := List.mem_map.1 ht
  obtain ⟨name, -, hname⟩ := Outcome.exists_of_mem_mapM h p hp
  obtain ⟨f, c, -, -, -, rfl⟩ := Produced.groupBy_eq_ok hname
  rfl

/-- Filter values are bound in order, each once: before them are the constants of what is shown,
after them the page. Truth values are bound or written out. -/
theorem binds_of_statement {r : Request} {q : Statement} (h : r.statement = .ok q) :
    ∃ bound, Piece.values q.pieces = (q.outputs.flatMap fun o => Piece.values o.pieces) ++ bound ++
        r.pageValues ∧
      bound.filter (fun v => !v.isBool) = r.filterValues.filter fun v => !v.isBool := by
  obtain ⟨groups, produced, built⟩ := built_of_statement h
  refine ⟨q.conditions.flatMap fun c => Piece.values c.pieces, ?_,
    Predicate.values_compileAll built.conditions_eq⟩
  have source : Piece.values q.source.pieces = [] := by
    rw [built.source_eq]
    rfl
  rw [Query.values_pieces, source, built.groups_eq, values_groups built.groupBy_eq,
    values_sort built.sort_eq, built.limit_eq, built.offset_eq]
  simp [pageValues]

end Request

/-! ### Legends

A legend has its own statements, one for its statistics and one for each bucket, and its own inputs:
a scope, a box, the bounds of a bucket. What a scope leaves out is told by whether a value is there
and by its truth, so that is what is kept of a code. -/

namespace Legend

/-- A box without its sides. -/
def eraseBox (_ : Box) : Box := ⟨0, 0, 0, 0⟩

/-- A code only says whether there is one, unless it is a truth value. -/
def eraseCode (v : Value) : Value :=
  if v.isBool then v else if v.truthy then .int 1 else .null

/-- A scope without its data: the relation stays, and whether there is a month, a code or a box. -/
def Scope.erase (s : Scope) : Scope :=
  { s with
    year := s.year.erase
    month := s.month.erase
    inseeCode := eraseCode s.inseeCode
    box := s.box.map eraseBox }

/-- A bucket without its bounds. -/
def eraseRange (r : Range Value) : Range Value :=
  { r with lower := r.lower.map Value.erase, upper := r.upper.map Value.erase }

/-- Two selections of the same rows and the same column, but for data. -/
structure Selection.Alike (a b : Selection) : Prop where
  source : a.source = b.source
  conditions : List.Forall₂ Condition.SameForm a.conditions b.conditions
  metric : a.metric = b.metric

theorem form_equals_erase (term : Term) (v : Value) :
    (Condition.equals term v).SameForm (Condition.equals term v.erase) := by
  cases v <;> first | exact .refl _ | exact Condition.form_compare .eq term _ _

theorem truthy_eraseCode (v : Value) : (eraseCode v).truthy = v.truthy := by
  by_cases flag : v.isBool
  · rw [eraseCode, if_pos flag]
  · by_cases truthy : v.truthy
    · rw [eraseCode, if_neg flag, if_pos truthy, truthy]
      rfl
    · rw [eraseCode, if_neg flag, if_neg truthy, Bool.eq_false_iff.2 truthy]
      rfl

theorem form_equals_eraseCode (term : Term) {v : Value} (truthy : v.truthy = true) :
    (Condition.equals term v).SameForm (Condition.equals term (eraseCode v)) := by
  by_cases flag : v.isBool
  · rw [eraseCode, if_pos flag]
    exact .refl _
  · rw [eraseCode, if_neg flag, if_pos truthy]
    cases v with
    | null => nomatch truthy
    | bool b => exact absurd rfl flag
    | _ => exact Condition.form_compare .eq term _ _

/-- Conditions that may be there are there together. -/
theorem forall₂_toList {α : Type} {m n : Option α} {f : α → Condition}
    (h : Option.Rel (fun a b => (f a).SameForm (f b)) m n) :
    List.Forall₂ Condition.SameForm (m.map f).toList (n.map f).toList := by
  cases h with
  | none => exact .nil
  | some h => exact .cons h .nil

theorem Scope.month?_erase (s : Scope) (term : Term) :
    Option.Rel (fun a b => (Condition.equals term a).SameForm (Condition.equals term b)) s.month?
      s.erase.month? := by
  have null : s.erase.month.isNull = s.month.isNull := Value.isNull_erase s.month
  rw [month?, month?, null]
  split
  · exact .none
  · exact .some (form_equals_erase term s.month)

theorem Scope.code?_erase (s : Scope) (term : Term) :
    Option.Rel (fun a b => (Condition.equals term a).SameForm (Condition.equals term b)) s.code?
      s.erase.code? := by
  have truthy : s.erase.inseeCode.truthy = s.inseeCode.truthy := truthy_eraseCode s.inseeCode
  have level : s.erase.level = s.level := rfl
  rw [code?, code?, truthy, level]
  split
  · rename_i restricted
    have given : s.inseeCode.truthy = true := by simpa using (Bool.and_eq_true_iff.1 restricted).2
    exact .some (form_equals_eraseCode term given)
  · exact .none

theorem Scope.box_erase (s : Scope) :
    List.Forall₂ Condition.SameForm (s.box.map (meetsBox s.level)).toList
      (s.erase.box.map (meetsBox s.erase.level)).toList := by
  unfold erase
  cases s.box with
  | none => exact .nil
  | some b => exact .cons rfl .nil

theorem Scope.relation_erase (s : Scope) : s.erase.relation = s.relation := by
  have null : s.erase.month.isNull = s.month.isNull := Value.isNull_erase s.month
  rw [relation, relation, grain, grain, null]
  rfl

/-- The rows of a scope and the column that is measured do not depend on the data. -/
theorem Scope.select_erase (s : Scope) (field : Value) :
    Agree Selection.Alike (s.select field) (s.erase.select field) := by
  rw [select, select, s.relation_erase]
  refine Agree.bind_same fun r => ?_
  refine Agree.bind_same fun c => ?_
  refine ⟨?_, ?_, rfl⟩
  · show (⟨⟨r.name, none⟩, s.box.map fun _ => outlinesJoin r⟩ : Source) =
      ⟨⟨r.name, none⟩, (s.box.map eraseBox).map fun _ => outlinesJoin r⟩
    rw [Option.map_map]
    rfl
  · refine List.rel_append (List.rel_append (List.rel_append ?_ ?_) ?_) s.box_erase
    · exact .cons (form_equals_erase _ s.year) (.cons (.refl _) .nil)
    · exact forall₂_toList (s.month?_erase _)
    · exact forall₂_toList (s.code?_erase _)

/-- The form of the statistics of a legend does not depend on the data. -/
theorem statsStatement_erase (s : Scope) (field : Value) (fractions : List Value) :
    Agree Query.SameForm (statsStatement s field fractions)
      (statsStatement s.erase field (fractions.map Value.erase)) := by
  refine (s.select_erase field).bind fun a b alike => ?_
  refine Query.form_eq ?_ alike.source alike.conditions rfl rfl rfl rfl
  have percentile (f : Value) (label : String) :
      Output.form ⟨.percentile f.erase b.metric, some label⟩ =
        Output.form ⟨.percentile f b.metric, some label⟩ := by
    cases f <;> rfl
  dsimp only
  rw [alike.metric, List.map_append, List.map_append]
  refine congrArg _ (List.ext_getElem (by simp) fun i _ _ => ?_)
  simp [percentile]

theorem conditions_erase (r : Range Value) (term : Term) :
    Agree (List.Forall₂ Condition.SameForm) (r.conditions term)
      ((eraseRange r).conditions term) := by
  have bound (c : Comparator) (v : Option Value) (exact_term : Term) :
      Agree (List.Forall₂ Condition.SameForm)
        (v.elim (.ok []) fun v => (c.withValue exact_term v).map fun condition => [condition])
        ((v.map Value.erase).elim (.ok []) fun v =>
          (c.withValue exact_term v).map fun condition => [condition]) := by
    cases v with
    | none => exact .nil
    | some v =>
      exact (c.withValue_erase exact_term v).bind (f := fun x => .ok [x]) (g := fun x => .ok [x])
        fun _ _ form => .cons form .nil
  refine (bound .ge r.lower (.cast term .number)).bind fun below below' hbelow => ?_
  refine (bound (if r.isLast then .le else .lt) r.upper (.cast term .number)).bind
    fun above above' habove => ?_
  exact List.rel_append hbelow habove

/-- The form of the count of a bucket does not depend on the data. -/
theorem countStatement_erase (s : Scope) (field : Value) (range : Range Value) :
    Agree Query.SameForm (countStatement s field range)
      (countStatement s.erase field (eraseRange range)) := by
  refine (s.select_erase field).bind fun a b alike => ?_
  obtain ⟨source, conditions, metric⟩ := a
  obtain ⟨rfl, forms, rfl⟩ := alike
  refine (conditions_erase range _).bind fun added added' more => ?_
  exact Query.form_eq rfl rfl (List.rel_append forms more) rfl rfl rfl rfl

end Legend

/-! ### Two runs

All inputs that become statements, gathered in one type, so that the result is one statement about
all of them. -/

/-- Whatever becomes a statement: a request of any kind, the statistics of a legend, or the count of
one of its buckets. -/
inductive Demand where
  | request (r : Request)
  /-- The statistics of a legend, with a break at each fraction. -/
  | stats (s : Legend.Scope) (field : Value) (fractions : List Value)
  /-- The number of values in a bucket. -/
  | count (s : Legend.Scope) (field : Value) (range : Range Value)

namespace Demand

/-- The statement that is demanded. -/
def statement : Demand → Except Fault Statement
  | request r => r.statement
  | stats s field fractions => Legend.statsStatement s field fractions
  | count s field range => Legend.countStatement s field range

/-- A demand without its data. Two demands are the same up to their data if they are the same
without them. -/
def erase : Demand → Demand
  | request r => request r.erase
  | stats s field fractions => stats s.erase field (fractions.map Value.erase)
  | count s field range => count s.erase field (Legend.eraseRange range)

/-- The parameters of a request are some constants, then the values of its filters in order, each
once, then its page. Truth values are bound or written out. -/
def Binds (constants : List Value) : Demand → Statement → Prop
  | request r, q => ∃ bound, Piece.values q.pieces = constants ++ bound ++ r.pageValues ∧
      bound.filter (fun v => !v.isBool) = r.filterValues.filter fun v => !v.isBool
  | _, _ => True

/-- A statement has the form of the statement of the erased input, or both fail in the same
class. -/
theorem statement_erase (d : Demand) : Agree Query.SameForm d.statement d.erase.statement := by
  cases d with
  | request r => exact r.statement_erase
  | stats s field fractions => exact Legend.statsStatement_erase s field fractions
  | count s field range => exact Legend.countStatement_erase s field range

theorem binds_together {d e : Demand} (h : d.erase = e.erase) {q q' : Statement}
    (hd : d.statement = .ok q) (he : e.statement = .ok q') :
    ∃ constants, d.Binds constants q ∧ e.Binds constants q' := by
  cases d with
  | request r =>
    cases e with
    | request r' =>
      have outputs := Request.outputs_eq_of_erase (by injection h) hd he
      refine ⟨q.outputs.flatMap fun o : Output => Piece.values o.pieces,
        Request.binds_of_statement hd, ?_⟩
      rw [outputs]
      exact Request.binds_of_statement he
    | _ => nomatch h
  | stats _ _ _ =>
    cases e with
    | stats _ _ _ => exact ⟨[], trivial, trivial⟩
    | _ => nomatch h
  | count _ _ _ =>
    cases e with
    | count _ _ _ => exact ⟨[], trivial, trivial⟩
    | _ => nomatch h

/-- **Data are never part of the text of a statement.**

Two demands that differ only in their data fail in the same class, or have statements of the same
text, and the parameters of a request are the same constants, then the values of its filters in
order, each once, then its page. -/
theorem noninterference {d e : Demand} (h : d.erase = e.erase) :
    Agree (fun q q' => Piece.join q.pieces = Piece.join q'.pieces ∧
      ∃ constants, d.Binds constants q ∧ e.Binds constants q') d.statement e.statement := by
  have forms : Agree Query.SameForm d.statement e.statement := by
    have he := e.statement_erase.symm (S := Query.SameForm) fun _ _ => .symm
    rw [← h] at he
    exact d.statement_erase.trans (fun _ _ _ => .trans) he
  cases hd : d.statement with
  | error f =>
    rw [hd] at forms
    cases he : e.statement with
    | error g => rwa [he] at forms
    | ok q' =>
      rw [he] at forms
      exact forms.elim
  | ok q =>
    rw [hd] at forms
    cases he : e.statement with
    | error g =>
      rw [he] at forms
      exact forms.elim
    | ok q' =>
      rw [he] at forms
      exact ⟨Piece.join_eq_of_erase forms, binds_together h hd he⟩

/-- A query for the sales of some kind, which names the kind by a pattern. -/
def salesLike (pattern : String) (least : Value) : Demand :=
  .request (.sales (.query {
    select := some ["price"]
    filters := [⟨"propertyTypeLabel", "ilike", .text pattern⟩, ⟨"price", "gte", least⟩] }))

/-- A pattern that would end the statement, were it part of it, leaves the text as it is. -/
theorem noninterference_salesLike :
    ∃ q q', (salesLike "'; DROP TABLE property_sales; --" (.int 0)).statement = .ok q ∧
      (salesLike "maison%" (.double 0)).statement = .ok q' ∧
      Piece.join q.pieces = Piece.join q'.pieces := by
  have agree := noninterference (d := salesLike "'; DROP TABLE property_sales; --" (.int 0))
    (e := salesLike "maison%" (.double 0)) rfl
  exact ⟨_, _, rfl, rfl, agree.1⟩

end Demand

end PropertyMarket
