import Mathlib.Data.List.TakeWhile
import NexusClaw.AuditChain.JsonValue
import NexusClaw.Scan

/-!
# Data scopes

`permission/src/data-scope-filter.ts`: the WHERE clause of an agent's data scope. A custom filter is
cut at `/\s+AND\s+/i`, and each condition must match a regular expression; what the two accept is
spelled out here over code units. The clause that comes out is the rendering of whitelisted fields and
operators (`sqlOf`), with a placeholder for each value.
-/

namespace NexusClaw.Permission.DataScope
open AuditChain (Units unit units isDigit decimalUnits)

/-! ## Regular expressions -/

/-- `\s`, and what `trim` takes off. -/
def isSpace (c : UInt16) : Bool :=
  (9 ≤ c && c ≤ 13) || c == 32 || c == 0xa0 || c == 0x1680 || (0x2000 ≤ c && c ≤ 0x200a) ||
    c == 0x2028 || c == 0x2029 || c == 0x202f || c == 0x205f || c == 0x3000 || c == 0xfeff

/-- `\w` -/
def isWord (c : UInt16) : Bool :=
  isDigit c || (unit 'A' ≤ c && c ≤ unit 'Z') || (unit 'a' ≤ c && c ≤ unit 'z') || c == unit '_'

/-- A letter in either case; no code unit beyond ASCII folds to one. -/
def isLetter (upper : Char) (c : UInt16) : Bool :=
  c == unit upper || c == unit upper + 32

/-- The quote around a value. -/
def quote : UInt16 :=
  39

/-- The length of the match of `/\s+AND\s+/i` at the head of a text. -/
def separatorLength (s : Units) : Option Nat :=
  match s.dropWhile isSpace with
  | a :: n :: d :: rest =>
    if s.takeWhile isSpace ≠ [] && isLetter 'A' a && isLetter 'N' n && isLetter 'D' d &&
        rest.takeWhile isSpace ≠ [] then
      some ((s.takeWhile isSpace).length + 3 + (rest.takeWhile isSpace).length)
    else none
  | _ => none

/-- `s.trim()` -/
def trim (s : Units) : Units :=
  ((s.dropWhile isSpace).reverse.dropWhile isSpace).reverse

structure Condition where
  fieldName : Units
  operator : Units
  value : Units
deriving DecidableEq

def operators : List Units :=
  ["=", "!=", ">", "<", ">=", "<="].map units

/-- `/\s*'([^']*)'$/` at the head of a text. -/
def quotedValue (s : Units) : Option Units :=
  match s.dropWhile isSpace with
  | [] => none
  | c :: rest =>
    if c = quote && rest.dropWhile (· ≠ quote) = [quote] then some (rest.takeWhile (· ≠ quote))
    else none

/-- `/^(\w+)\s*(=|!=|>|<|>=|<=)\s*'([^']*)'$/`, with the alternatives in their order. -/
def matchCondition (s : Units) : Option Condition :=
  let rest := (s.dropWhile isWord).dropWhile isSpace
  if s.takeWhile isWord = [] then none
  else operators.findSome? fun operator =>
    if operator.isPrefixOf rest then
      (quotedValue (rest.drop operator.length)).map fun value =>
        { fieldName := s.takeWhile isWord, operator, value }
    else none

/-! ## WHERE clauses -/

/-- `InvalidCustomFilterException` -/
structure InvalidCustomFilterException where
  message : Units
deriving DecidableEq

def invalidCustomFilter (message : Units) : InvalidCustomFilterException where
  message := units "Invalid custom filter expression: " ++ message

structure DataScopeWhereClause where
  sql : Units
  params : List Units
deriving DecidableEq

/-- `ALLOWED_FIELDS` -/
def allowedFields : List Units :=
  ["id", "workspace_id", "org_node_id", "created_by", "owner_id", "record_type_id", "status",
    "stage", "type", "is_active", "created_at", "updated_at", "name", "account_id",
    "contact_id"].map units

/-- `${fieldName} ${operator} $${paramIndex}` -/
def sqlPart (fieldName operator : Units) (paramIndex : Nat) : Units :=
  fieldName ++ units " " ++ operator ++ units " $" ++ decimalUnits paramIndex

/-- The SQL parts so far, the parameters so far and the next placeholder. -/
structure Clause where
  sqlParts : List Units
  params : List Units
  paramIndex : Nat

/-- The loop body of `buildCustomClause`. -/
def addCondition (clause : Clause) (condition : Units) :
    Except InvalidCustomFilterException Clause :=
  match matchCondition (trim condition) with
  | none => .error (invalidCustomFilter (units "Invalid condition syntax: " ++ condition))
  | some m =>
    if !allowedFields.contains m.fieldName then
      .error (invalidCustomFilter (units "Field not allowed in custom filter: " ++ m.fieldName))
    else if !operators.contains m.operator then
      .error (invalidCustomFilter (units "Operator not allowed: " ++ m.operator))
    else
      .ok
        { sqlParts := clause.sqlParts ++ [sqlPart m.fieldName m.operator clause.paramIndex]
          params := clause.params ++ [m.value]
          paramIndex := clause.paramIndex + 1 }

def buildCustomClause (customFilter : Units) :
    Except InvalidCustomFilterException DataScopeWhereClause :=
  if customFilter = [] || trim customFilter = [] then
    .error (invalidCustomFilter (units "Empty custom filter expression"))
  else do
    let clause ← (Scan.split separatorLength customFilter).foldlM addCondition
      { sqlParts := [], params := [], paramIndex := 1 }
    .ok { sql := (units " AND ").intercalate clause.sqlParts, params := clause.params }

def buildOrgSubtreeClause (orgSubtreeIds : List Units) : DataScopeWhereClause :=
  if orgSubtreeIds = [] then { sql := units "1 = 0", params := [] }
  else
    let placeholders := (List.range orgSubtreeIds.length).map fun i => units "$" ++ decimalUnits (i + 1)
    { sql := units "org_node_id IN (" ++ (units ", ").intercalate placeholders ++ units ")"
      params := orgSubtreeIds }

def buildOwnClause (userId : Units) : DataScopeWhereClause where
  sql := units "created_by = $1"
  params := [userId]

inductive DataScopeType where
  | all
  | orgSubtree
  | own
  | custom
deriving DecidableEq

structure DataScopeOptions where
  orgSubtreeIds : Option (List Units) := none
  userId : Option Units := none
  customFilter : Option Units := none

def buildWhereClause (dataScopeType : DataScopeType) (options : DataScopeOptions) :
    Except InvalidCustomFilterException DataScopeWhereClause :=
  match dataScopeType with
  | .all => .ok { sql := [], params := [] }
  | .orgSubtree => .ok (buildOrgSubtreeClause (options.orgSubtreeIds.getD []))
  | .own => .ok (buildOwnClause (options.userId.getD []))
  | .custom => buildCustomClause (options.customFilter.getD [])

/-! ## Soundness -/

/-- A condition on a whitelisted field with one of the six operators. -/
structure Condition.Allowed (c : Condition) : Prop where
  fieldName : c.fieldName ∈ allowedFields
  operator : c.operator ∈ operators

/-- The SQL parts of fields and operators, with placeholders numbered from `i` on. -/
def sqlParts (i : Nat) : List (Units × Units) → List Units
  | [] => []
  | (fieldName, operator) :: rest => sqlPart fieldName operator i :: sqlParts (i + 1) rest

/-- The conjunction of fields and operators: no value has a place in it. -/
def sqlOf (pairs : List (Units × Units)) : Units :=
  (units " AND ").intercalate (sqlParts 1 pairs)

def Condition.pair (c : Condition) : Units × Units :=
  (c.fieldName, c.operator)

/-- The clause of a list of conditions. -/
def clauseOf (conditions : List Condition) : DataScopeWhereClause where
  sql := sqlOf (conditions.map Condition.pair)
  params := conditions.map Condition.value

/-- A condition is added if it is matched. -/
lemma addCondition_ok {clause clause' : Clause} {condition : Units} :
    addCondition clause condition = .ok clause' ↔
      ∃ c, matchCondition (trim condition) = some c ∧ c.Allowed ∧
        clause' =
          { sqlParts := clause.sqlParts ++ [sqlPart c.fieldName c.operator clause.paramIndex]
            params := clause.params ++ [c.value]
            paramIndex := clause.paramIndex + 1 } := by
  unfold addCondition
  cases hmatch : matchCondition (trim condition) with
  | none => simp
  | some c =>
    by_cases hfield : c.fieldName ∈ allowedFields
    · by_cases hop : c.operator ∈ operators
      · simp only [List.contains_iff_mem.2 hfield, List.contains_iff_mem.2 hop, Bool.not_true,
          Bool.false_eq_true, if_false, Except.ok.injEq, Option.some.injEq, exists_eq_left']
        exact ⟨fun h => ⟨⟨hfield, hop⟩, h.symm⟩, fun h => h.2.symm⟩
      · have hno : ¬ c.Allowed := fun h => hop h.operator
        simp [hfield, hop, hno]
    · have hno : ¬ c.Allowed := fun h => hfield h.fieldName
      simp [hfield, hno]

/-- A run of the loop, from any clause: every condition matches and is allowed, and the clause grows
by their parts and values. -/
lemma addConditions_ok {conditions : List Units} {clause clause' : Clause} :
    conditions.foldlM addCondition clause = .ok clause' ↔
      ∃ cs : List Condition,
        conditions.map (fun condition => matchCondition (trim condition)) = cs.map some ∧
          (∀ c ∈ cs, c.Allowed) ∧
          clause' =
            { sqlParts := clause.sqlParts ++ sqlParts clause.paramIndex (cs.map Condition.pair)
              params := clause.params ++ cs.map Condition.value
              paramIndex := clause.paramIndex + cs.length } := by
  -- induction on the conditions, with the clause of those before
  induction conditions generalizing clause with
  | nil =>
    constructor
    · intro h
      obtain rfl := Except.ok.inj h
      exact ⟨[], rfl, by simp, by simp [sqlParts]⟩
    · rintro ⟨cs, hcs, _, rfl⟩
      obtain rfl := List.map_eq_nil_iff.1 hcs.symm
      simp [sqlParts, pure, Except.pure]
  | cons condition conditions ih =>
    rw [List.foldlM_cons]
    constructor
    · intro h
      cases hadd : addCondition clause condition with
      | error e =>
        rw [hadd] at h
        cases h
      | ok clause₁ =>
        rw [hadd] at h
        obtain ⟨c, hc, hallowed, rfl⟩ := addCondition_ok.1 hadd
        obtain ⟨cs, hcs, hall, rfl⟩ := ih.1 h
        refine ⟨c :: cs, by simp [hc, hcs], ?_, ?_⟩
        · simpa using ⟨hallowed, hall⟩
        · simp [sqlParts, Condition.pair, Nat.add_comm, Nat.add_left_comm]
    · rintro ⟨cs, hcs, hall, rfl⟩
      cases cs with
      | nil => cases hcs
      | cons c cs =>
        obtain ⟨hc, hrest⟩ := List.cons.inj hcs
        have hallowed := hall c (List.mem_cons_self ..)
        rw [addCondition_ok.2 ⟨c, hc, hallowed, rfl⟩]
        refine ih.2 ⟨cs, hrest, fun c' h => hall c' (List.mem_cons_of_mem _ h), ?_⟩
        simp [sqlParts, Condition.pair, Nat.add_comm, Nat.add_left_comm]

/-- A text has a part. -/
lemma split_ne_nil (s : Units) : Scan.split separatorLength s ≠ [] := by
  have hall : ∀ (s piece : Units) (skip : Nat), Scan.splitFrom separatorLength piece skip s ≠ [] := by
    intro s
    induction s with
    | nil => exact fun piece skip => List.cons_ne_nil _ _
    | cons c s ih =>
      intro piece skip
      cases skip with
      | zero =>
        rw [Scan.splitFrom]
        split
        · exact List.cons_ne_nil _ _
        · exact ih _ _
      | succ skip => exact ih _ _
  exact hall s [] 0

/-- What the filter accepts, condition by condition. -/
lemma buildCustomClause_ok {s : Units} {clause : DataScopeWhereClause} :
    buildCustomClause s = .ok clause ↔ trim s ≠ [] ∧ ∃ cs : List Condition,
      (Scan.split separatorLength s).map (fun condition => matchCondition (trim condition)) =
        cs.map some ∧ (∀ c ∈ cs, c.Allowed) ∧ clause = clauseOf cs := by
  unfold buildCustomClause
  by_cases htrim : trim s = []
  · simp [htrim]
  · have hs : s ≠ [] := by
      rintro rfl
      exact htrim rfl
    simp only [hs, htrim, decide_false, Bool.or_self, Bool.false_eq_true, if_false, ne_eq,
      not_false_eq_true, true_and]
    constructor
    · intro h
      cases hloop : (Scan.split separatorLength s).foldlM addCondition
          { sqlParts := [], params := [], paramIndex := 1 } with
      | error e =>
        rw [hloop] at h
        cases h
      | ok done =>
        rw [hloop] at h
        obtain ⟨cs, hcs, hall, rfl⟩ := addConditions_ok.1 hloop
        obtain rfl := Except.ok.inj h
        exact ⟨cs, hcs, hall, rfl⟩
    · rintro ⟨cs, hcs, hall, rfl⟩
      rw [addConditions_ok.2 ⟨cs, hcs, hall, rfl⟩]
      rfl

/-! ## Scanning -/

section scanning
variable {p : UInt16 → Bool} {q : UInt16}

/-- A unit that fails the test ends what is taken. -/
lemma takeWhile_stop (hq : p q = false) (x y : Units) :
    (x ++ q :: y).takeWhile p = x.takeWhile p := by
  induction x with
  | nil => simp [hq]
  | cons c x ih =>
    rw [List.cons_append, List.takeWhile_cons, List.takeWhile_cons, ih]

/-- A unit that fails the test ends what is dropped. -/
lemma dropWhile_stop (hq : p q = false) (x y : Units) :
    (x ++ q :: y).dropWhile p = x.dropWhile p ++ q :: y := by
  induction x with
  | nil => simp [hq]
  | cons c x ih =>
    rw [List.cons_append, List.dropWhile_cons, List.dropWhile_cons, ih]
    split <;> rfl

/-- All is taken. -/
lemma takeWhile_all {x : Units} (h : ∀ c ∈ x, p c = true) : x.takeWhile p = x :=
  List.takeWhile_eq_self_iff.2 h

/-- All is dropped. -/
lemma dropWhile_all {x : Units} (h : ∀ c ∈ x, p c = true) : x.dropWhile p = [] :=
  List.dropWhile_eq_nil_iff.2 h

end scanning

/-- A suffix of two texts begins in the second or in the first. -/
lemma suffix_append {α : Type} {t x y : List α} (h : t <:+ x ++ y) :
    t <:+ y ∨ ∃ u, t = u ++ y ∧ u <:+ x := by
  obtain ⟨pre, hpre⟩ := h
  rcases List.append_eq_append_iff.1 hpre with ⟨u, hx, ht⟩ | ⟨u, _, hy⟩
  · exact .inr ⟨u, ht, pre, hx.symm⟩
  · exact .inl ⟨u, hy.symm⟩

/-- A separator ends before a quote. -/
lemma separatorLength_quote (x y : Units) :
    separatorLength (x ++ quote :: y) = separatorLength x := by
  have hspace : isSpace quote = false := by decide
  have hA : isLetter 'A' quote = false := by decide
  have hN : isLetter 'N' quote = false := by decide
  have hD : isLetter 'D' quote = false := by decide
  unfold separatorLength
  rw [dropWhile_stop hspace, takeWhile_stop hspace]
  cases x.dropWhile isSpace with
  | nil =>
    rcases y with _ | ⟨n, _ | ⟨d, rest⟩⟩
    · rfl
    · rfl
    · simp [hA]
  | cons a x₁ =>
    cases x₁ with
    | nil =>
      cases y with
      | nil => rfl
      | cons d rest => simp [hN]
    | cons n x₂ =>
      cases x₂ with
      | nil => simp [hD]
      | cons d rest =>
        simp only [List.cons_append]
        rw [takeWhile_stop hspace]

/-- A separator begins with white space. -/
lemma separatorLength_head {c : UInt16} {x : Units} (h : isSpace c = false) :
    separatorLength (c :: x) = none := by
  unfold separatorLength
  rw [List.takeWhile_cons_of_neg (by simp [h]), List.dropWhile_cons_of_neg (by simp [h])]
  rcases x with _ | ⟨n, _ | ⟨d, rest⟩⟩ <;> simp

/-- Where no code unit is an A, there is no separator. -/
lemma separatorLength_lettered {x : Units} (h : ∀ c ∈ x, isLetter 'A' c = false) :
    separatorLength x = none := by
  unfold separatorLength
  split
  · next a n d rest hdrop =>
    have ha : a ∈ x := (List.dropWhile_suffix isSpace).subset (hdrop ▸ List.mem_cons_self ..)
    simp [h a ha]
  · rfl

/-! ## Completeness -/

/-- A condition as it is written in a filter, with any white space around the operator. -/
structure Written where
  condition : Condition
  before : Units
  after : Units

def Written.text (w : Written) : Units :=
  w.condition.fieldName ++ w.before ++ w.condition.operator ++ w.after ++
    quote :: (w.condition.value ++ [quote])

/-- The parts of a condition fit: its field and operator are allowed, there is only white space around
the operator, and the value has no quote in it and no separator. -/
structure Written.Fits (w : Written) : Prop where
  allowed : w.condition.Allowed
  before : ∀ c ∈ w.before, isSpace c = true
  after : ∀ c ∈ w.after, isSpace c = true
  quoteless : quote ∉ w.condition.value
  joined : ∀ y, y <:+ w.condition.value → separatorLength y = none

/-- A word unit is no white space. -/
lemma isSpace_word {c : UInt16} (h : isWord c = true) : isSpace c = false := by
  have hall : ∀ n : Fin 128, isWord (UInt16.ofNat n) = true →
      isSpace (UInt16.ofNat n) = false := by decide
  have hlt : c.toNat < 128 := by
    simp only [isWord, isDigit, unit, Bool.or_eq_true, Bool.and_eq_true, decide_eq_true_eq,
      beq_iff_eq, UInt16.le_iff_toNat_le] at h
    rcases h with ((⟨_, h⟩ | ⟨_, h⟩) | ⟨_, h⟩) | rfl
    · exact Nat.lt_of_le_of_lt h (by decide)
    · exact Nat.lt_of_le_of_lt h (by decide)
    · exact Nat.lt_of_le_of_lt h (by decide)
    · decide
  have hc := hall ⟨c.toNat, hlt⟩
  rw [UInt16.ofNat_toNat] at hc
  exact hc h

/-- White space is no letter. -/
lemma isSpace_unlettered {c : UInt16} (h : isSpace c = true) : isLetter 'A' c = false := by
  by_contra hletter
  rw [Bool.not_eq_false, isLetter, Bool.or_eq_true, beq_iff_eq, beq_iff_eq] at hletter
  rcases hletter with rfl | rfl <;> exact absurd h (by decide)

/-- White space is no word unit. -/
lemma isSpace_unworded {c : UInt16} (h : isSpace c = true) : isWord c = false := by
  by_contra hword
  rw [Bool.not_eq_false] at hword
  exact absurd h (by simp [isSpace_word hword])

/-- A field is a word. -/
lemma field_word {field : Units} (h : field ∈ allowedFields) :
    (∀ c ∈ field, isWord c = true) ∧ field ≠ [] := by
  have hall : ∀ field ∈ allowedFields, field.all isWord = true ∧ field ≠ [] := by
    decide
  obtain ⟨hword, hne⟩ := hall field h
  exact ⟨List.all_eq_true.1 hword, hne⟩

/-- An operator has neither letters nor white space. -/
lemma operator_units {operator : Units} (h : operator ∈ operators) :
    (∀ c ∈ operator, isLetter 'A' c = false ∧ isSpace c = false ∧ isWord c = false) ∧
      operator ≠ [] := by
  have hall : ∀ operator ∈ operators,
      (operator.all fun c => !isLetter 'A' c && !isSpace c && !isWord c) = true ∧
        operator ≠ [] := by
    decide
  obtain ⟨hunits, hne⟩ := hall operator h
  refine ⟨fun c hc => ?_, hne⟩
  have hunit := List.all_eq_true.1 hunits c hc
  simp only [Bool.and_eq_true, Bool.not_eq_true'] at hunit
  exact ⟨hunit.1.1, hunit.1.2, hunit.2⟩

section written
variable {w : Written}

/-- A condition that was written begins with its field. -/
lemma Written.head (h : w.Fits) : ∃ c rest, w.text = c :: rest ∧ isSpace c = false := by
  obtain ⟨hword, hne⟩ := field_word h.allowed.fieldName
  obtain ⟨c, rest, hfield⟩ := List.exists_cons_of_ne_nil hne
  refine ⟨c, rest ++ w.before ++ w.condition.operator ++ w.after ++
    quote :: (w.condition.value ++ [quote]), ?_, isSpace_word (hword c ?_)⟩
  · simp [Written.text, hfield]
  · rw [hfield]
    exact List.mem_cons_self ..

/-- No separator begins in a condition. -/
lemma Written.clean (h : w.Fits) : Scan.Clean separatorLength w.text := by
  obtain ⟨hword, _⟩ := field_word h.allowed.fieldName
  obtain ⟨hop, _⟩ := operator_units h.allowed.operator
  intro y hy hsuffix rest
  -- every suffix ends in the closing quote
  have htext : w.text = (w.condition.fieldName ++ (w.before ++ w.condition.operator ++ w.after) ++
      quote :: w.condition.value) ++ [quote] := by
    simp [Written.text]
  rw [htext] at hsuffix
  rcases suffix_append hsuffix with hend | ⟨t, rfl, ht⟩
  · rcases List.suffix_cons_iff.1 hend with rfl | hnil
    · exact separatorLength_head (by decide)
    · exact absurd (List.suffix_nil.1 hnil) hy
  · rw [List.append_assoc]
    show separatorLength (t ++ quote :: rest) = none
    rw [separatorLength_quote]
    rcases suffix_append ht with hvalue | ⟨u, rfl, hu⟩
    · rcases List.suffix_cons_iff.1 hvalue with rfl | hinside
      · exact separatorLength_head (by decide)
      · exact h.joined t hinside
    · rw [separatorLength_quote]
      rcases suffix_append hu with hmiddle | ⟨v, rfl, hv⟩
      · refine separatorLength_lettered fun c hc => ?_
        have hin := hmiddle.subset hc
        rw [List.mem_append, List.mem_append] at hin
        rcases hin with (hbefore | hoperator) | hafter
        · exact isSpace_unlettered (h.before c hbefore)
        · exact (hop c hoperator).1
        · exact isSpace_unlettered (h.after c hafter)
      · cases v with
        | nil =>
          refine separatorLength_lettered fun c hc => ?_
          rw [List.nil_append, List.mem_append, List.mem_append] at hc
          rcases hc with (hbefore | hoperator) | hafter
          · exact isSpace_unlettered (h.before c hbefore)
          · exact (hop c hoperator).1
          · exact isSpace_unlettered (h.after c hafter)
        | cons c v =>
          exact separatorLength_head (isSpace_word (hword c (hv.subset (List.mem_cons_self ..))))

/-- The separator of a join is one match, whatever condition follows. -/
lemma Written.separator (h : w.Fits) (rest : Units) :
    separatorLength (units " AND " ++ (w.text ++ rest)) = some (units " AND ").length := by
  obtain ⟨c, tail, htext, hc⟩ := Written.head h
  rw [htext]
  have hunits : units " AND " = [32, 65, 78, 68, 32] := by decide
  rw [hunits]
  simp [separatorLength, List.takeWhile, List.dropWhile, hc, show isSpace 32 = true by decide,
    show isSpace 65 = false by decide, show isLetter 'A' 65 = true by decide,
    show isLetter 'N' 78 = true by decide, show isLetter 'D' 68 = true by decide]

/-- A condition that was written has no white space around it. -/
lemma Written.trim_text (h : w.Fits) : trim w.text = w.text := by
  obtain ⟨c, tail, htext, hc⟩ := Written.head h
  have hquote : isSpace quote = false := by decide
  have hlast : w.text.reverse = quote :: (w.condition.fieldName ++ w.before ++
      w.condition.operator ++ w.after ++ quote :: w.condition.value).reverse := by
    simp [Written.text]
  unfold trim
  rw [htext, List.dropWhile_cons_of_neg (by simp [hc]), ← htext, hlast,
    List.dropWhile_cons_of_neg (by simp [hquote]), ← hlast, List.reverse_reverse]

/-- A quoted value is read back. -/
lemma quotedValue_text (h : w.Fits) :
    quotedValue (w.after ++ quote :: (w.condition.value ++ [quote])) = some w.condition.value := by
  have hquote : isSpace quote = false := by decide
  have hvalue : ∀ c ∈ w.condition.value, decide (c ≠ quote) = true := by
    intro c hc
    rw [decide_eq_true_eq]
    rintro rfl
    exact h.quoteless hc
  unfold quotedValue
  rw [dropWhile_stop hquote, dropWhile_all h.after, List.nil_append]
  dsimp only
  rw [dropWhile_stop (by simp), takeWhile_stop (by simp), dropWhile_all hvalue,
    takeWhile_all hvalue]
  simp

/-- An operator followed by another of its code units is no match. -/
lemma quotedValue_equals (x : Units) : quotedValue (unit '=' :: x) = none := by
  have hspace : isSpace (unit '=') = false := by decide
  have hquote : unit '=' ≠ quote := by decide
  unfold quotedValue
  rw [List.dropWhile_cons_of_neg (by simp [hspace])]
  simp [hquote]

/-- A condition that was written is matched. -/
lemma Written.match_text (h : w.Fits) : matchCondition w.text = some w.condition := by
  obtain ⟨hword, hne⟩ := field_word h.allowed.fieldName
  obtain ⟨hop, hopne⟩ := operator_units h.allowed.operator
  obtain ⟨o, os, hoperator⟩ := List.exists_cons_of_ne_nil hopne
  have ho := hop o (hoperator ▸ List.mem_cons_self ..)
  -- what follows the name begins with no word unit
  have hrest : ∃ c rest, w.before ++ w.condition.operator ++ w.after ++
      quote :: (w.condition.value ++ [quote]) = c :: rest ∧ isWord c = false := by
    cases hbefore : w.before with
    | nil =>
      rw [hoperator]
      exact ⟨o, _, rfl, ho.2.2⟩
    | cons b bs =>
      exact ⟨b, _, rfl, isSpace_unworded (h.before b (hbefore ▸ List.mem_cons_self ..))⟩
  obtain ⟨c, rest, hcons, hc⟩ := hrest
  have htext : w.text = w.condition.fieldName ++ c :: rest := by
    rw [← hcons]
    simp [Written.text]
  have hname : w.text.takeWhile isWord = w.condition.fieldName := by
    rw [htext, takeWhile_stop hc, takeWhile_all hword]
  have hafter : (w.text.dropWhile isWord).dropWhile isSpace =
      w.condition.operator ++ (w.after ++ quote :: (w.condition.value ++ [quote])) := by
    rw [htext, dropWhile_stop hc, dropWhile_all hword, List.nil_append, ← hcons, hoperator]
    have hsplit : w.before ++ o :: os ++ w.after ++ quote :: (w.condition.value ++ [quote]) =
        w.before ++ o :: (os ++ (w.after ++ quote :: (w.condition.value ++ [quote]))) := by
      simp
    rw [hsplit, dropWhile_stop ho.2.1, dropWhile_all h.before]
    rfl
  have hvalue := quotedValue_text h
  unfold matchCondition
  dsimp only
  rw [if_neg (by rw [hname]; exact hne), hafter, hname]
  generalize w.after ++ quote :: (w.condition.value ++ [quote]) = tail at hvalue
  have hall : ∀ operator ∈ operators, operators.findSome? (fun operator' =>
      if operator'.isPrefixOf (operator ++ tail) then
        (quotedValue ((operator ++ tail).drop operator'.length)).map fun value =>
          { fieldName := w.condition.fieldName, operator := operator', value : Condition }
      else none) = (quotedValue tail).map fun value =>
        { fieldName := w.condition.fieldName, operator, value : Condition } := by
    have hequals := quotedValue_equals tail
    have hunits : operators = [[61], [33, 61], [62], [60], [62, 61], [60, 61]] := by decide
    have heq : unit '=' = 61 := by decide
    rw [heq] at hequals
    rw [hunits]
    intro operator hin
    simp only [List.mem_cons, List.not_mem_nil, or_false] at hin
    rcases hin with rfl | rfl | rfl | rfl | rfl | rfl <;>
      simp [List.findSome?, List.isPrefixOf, hequals, hvalue]
  rw [hall _ h.allowed.operator, hvalue]
  rfl

end written

/-! ## Custom filters -/

/-- Conditions written one after the other. -/
def filterText (ws : List Written) : Units :=
  (units " AND ").intercalate (ws.map Written.text)

/-- A filter begins with its first condition. -/
lemma filterText_head {w : Written} {ws : List Written} (h : w.Fits) :
    ∃ c rest, filterText (w :: ws) = c :: rest ∧ isSpace c = false := by
  obtain ⟨c, rest, htext, hc⟩ := Written.head h
  cases ws with
  | nil => exact ⟨c, rest, by simp [filterText, htext], hc⟩
  | cons v ws =>
    refine ⟨c, rest ++ (units " AND " ++ filterText (v :: ws)), ?_, hc⟩
    unfold filterText
    rw [List.map_cons, List.map_cons, List.intercalate_cons_cons, htext]
    simp

/-- A text with something in it is not blank. -/
lemma trim_ne_nil {c : UInt16} {s : Units} (h : isSpace c = false) : trim (c :: s) ≠ [] := by
  intro htrim
  unfold trim at htrim
  rw [List.dropWhile_cons_of_neg (by simp [h]), List.reverse_eq_nil_iff,
    List.dropWhile_eq_nil_iff] at htrim
  exact absurd (htrim c (by simp)) (by simp [h])

/-- A filter that was written is read back. -/
lemma buildCustomClause_filterText {ws : List Written} (hws : ws ≠ [])
    (hfits : ∀ w ∈ ws, w.Fits) :
    buildCustomClause (filterText ws) = .ok (clauseOf (ws.map Written.condition)) := by
  have hsplit : Scan.split separatorLength (filterText ws) = ws.map Written.text := by
    refine Scan.split_intercalate (by decide) (by simpa using hws) ?_ ?_
    · intro t ht
      obtain ⟨w, hw, rfl⟩ := List.mem_map.1 ht
      exact Written.clean (hfits w hw)
    · intro t ht rest
      obtain ⟨w, hw, rfl⟩ := List.mem_map.1 ht
      exact Written.separator (hfits w hw) rest
  refine buildCustomClause_ok.2 ⟨?_, ws.map Written.condition, ?_, ?_, rfl⟩
  · obtain ⟨w, rest, rfl⟩ := List.exists_cons_of_ne_nil hws
    obtain ⟨c, tail, htext, hc⟩ := @filterText_head w rest (hfits w (List.mem_cons_self ..))
    rw [htext]
    exact trim_ne_nil hc
  · rw [hsplit, List.map_map, List.map_map]
    refine List.map_congr_left fun w hw => ?_
    show matchCondition (trim w.text) = some w.condition
    rw [Written.trim_text (hfits w hw), Written.match_text (hfits w hw)]
  · intro c hc
    obtain ⟨w, hw, rfl⟩ := List.mem_map.1 hc
    exact (hfits w hw).allowed

/-- A custom filter throws, or it yields the clause of allowed conditions, one for each piece of the
text; and the filter that allowed conditions are written as yields their clause. -/
theorem custom_filter_faithful (s : Units) (ws : List Written) (hws : ws ≠ [])
    (hfits : ∀ w ∈ ws, w.Fits) :
    ((∃ e : InvalidCustomFilterException,
        buildWhereClause .custom { customFilter := some s } = .error e) ∨
      ∃ cs, cs ≠ [] ∧ (∀ c ∈ cs, c.Allowed) ∧
        buildWhereClause .custom { customFilter := some s } = .ok (clauseOf cs)) ∧
    buildWhereClause .custom { customFilter := some (filterText ws) } =
      .ok (clauseOf (ws.map Written.condition)) := by
  constructor
  · cases hbuild : buildWhereClause .custom { customFilter := some s } with
    | error e => exact .inl ⟨e, rfl⟩
    | ok clause =>
      obtain ⟨_, cs, hcs, hall, rfl⟩ := buildCustomClause_ok.1 hbuild
      refine .inr ⟨cs, ?_, hall, rfl⟩
      rintro rfl
      exact split_ne_nil s (List.map_eq_nil_iff.1 hcs)
  · exact buildCustomClause_filterText hws hfits

/-- `name = 'northland' AND id>='7'` -/
def regionFilter : List Written :=
  [{ condition := { fieldName := units "name", operator := units "=", value := units "northland" }
     before := units " "
     after := units " " },
   { condition := { fieldName := units "id", operator := units ">=", value := units "7" }
     before := []
     after := [] }]

/-- The filter of a region is read back. -/
theorem regionFilter_faithful :
    buildWhereClause .custom { customFilter := some (units "name = 'northland' AND id>='7'") } =
      .ok { sql := units "name = $1 AND id >= $2", params := [units "northland", units "7"] } := by
  have h := (custom_filter_faithful [] regionFilter (by decide) ?_).2
  · have htext : filterText regionFilter = units "name = 'northland' AND id>='7'" := by
      decide
    have hclause : clauseOf (regionFilter.map Written.condition) =
        { sql := units "name = $1 AND id >= $2", params := [units "northland", units "7"] } := by
      decide
    rw [htext, hclause] at h
    exact h
  · intro w hw
    have hall : ∀ w ∈ regionFilter, (w.condition.fieldName ∈ allowedFields ∧
        w.condition.operator ∈ operators) ∧ w.before.all isSpace = true ∧
        w.after.all isSpace = true ∧ quote ∉ w.condition.value ∧
        ∀ y ∈ w.condition.value.tails, separatorLength y = none := by
      decide
    obtain ⟨⟨hfield, hoperator⟩, hbefore, hafter, hquoteless, hjoined⟩ := hall w hw
    exact ⟨⟨hfield, hoperator⟩, List.all_eq_true.1 hbefore, List.all_eq_true.1 hafter, hquoteless,
      fun y hy => hjoined y ((List.mem_tails _ _).2 hy)⟩

/-- `name = 'A AND B'` -/
def splitFilter : List Written :=
  [{ condition := { fieldName := units "name", operator := units "=", value := units "A AND B" }
     before := units " "
     after := units " " }]

/-- The text of a parameter may occur in the SQL, and a value with a separator in it is not read back:
`id = '1'` and `name = 'A AND B'`. -/
theorem custom_filter_literally :
    (¬ ∀ s clause, buildWhereClause .custom { customFilter := some s } = .ok clause →
      ∀ value ∈ clause.params, ¬ value <:+: clause.sql) ∧
    ¬ ∀ ws : List Written, ws ≠ [] → (∀ w ∈ ws, w.condition.Allowed ∧
        w.before = units " " ∧ w.after = units " " ∧ quote ∉ w.condition.value) →
      buildWhereClause .custom { customFilter := some (filterText ws) } =
        .ok (clauseOf (ws.map Written.condition)) := by
  constructor
  · intro h
    have hbuild : buildWhereClause .custom { customFilter := some (units "id = '1'") } =
        .ok { sql := units "id = $1", params := [units "1"] } := by decide
    exact h _ _ hbuild (units "1") (List.mem_singleton_self _)
      ⟨units "id = $", [], by decide⟩
  · intro h
    have hthrows : buildWhereClause .custom { customFilter := some (filterText splitFilter) } =
        .error (invalidCustomFilter (units "Invalid condition syntax: name = 'A")) := by
      decide
    have hok := h splitFilter (List.cons_ne_nil _ _) fun w hw => by
      obtain rfl := List.mem_singleton.1 hw
      exact ⟨⟨by decide, by decide⟩, rfl, rfl, by decide⟩
    cases hthrows.symm.trans hok

end NexusClaw.Permission.DataScope
