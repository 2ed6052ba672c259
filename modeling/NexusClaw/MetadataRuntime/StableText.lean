import NexusClaw.AuditChain.CanonicalText

/-!
# Stable text

`sortValue` and `stableStringify` of `metadata-runtime.utils.ts`: the entries of every object sorted by
`localeCompare`, without the undefined ones, and the result written by `JSON.stringify` with an indent
of two. The text tells two values apart exactly when they differ in more than the order of the keys and
undefined entries, provided that `localeCompare` tells the keys of every object apart.
-/

namespace NexusClaw.MetadataRuntime

open AuditChain

/-! ## Values -/

/-- A value of a normalised record: an entry of an object may be undefined. -/
inductive Value where
  | null
  | bool (b : Bool)
  | num (n : Number)
  | str (s : Units)
  | arr (vs : List Value)
  | obj (fields : List (Units × Option Value))

namespace Value

/-- Induction over a value: the parts of an array, and the defined entries of an object. -/
@[elab_as_elim, induction_eliminator]
lemma induct {P : Value → Prop} (null : P .null) (bool : ∀ b, P (.bool b)) (num : ∀ n, P (.num n))
    (str : ∀ s, P (.str s)) (arr : ∀ vs, (∀ v ∈ vs, P v) → P (.arr vs))
    (obj : ∀ fields : List (Units × Option Value),
      (∀ f ∈ fields, ∀ v, f.2 = some v → P v) → P (.obj fields)) (v : Value) : P v :=
  @Value.rec P (fun vs => ∀ v ∈ vs, P v) (fun fields => ∀ f ∈ fields, ∀ v, f.2 = some v → P v)
    (fun f => ∀ v, f.2 = some v → P v) (fun entry => ∀ v, entry = some v → P v)
    null bool num str arr obj (List.forall_mem_nil _)
    (fun _ _ hv hvs => List.forall_mem_cons.2 ⟨hv, hvs⟩) (List.forall_mem_nil _)
    (fun _ _ hf hfs => List.forall_mem_cons.2 ⟨hf, hfs⟩) (fun _ _ hentry => hentry)
    nofun (fun _ hv _ h => Option.some.inj h ▸ hv) v

mutual
/-- The value without its undefined entries. -/
def defined : Value → JsonValue
  | .null => .null
  | .bool b => .bool b
  | .num n => .num n
  | .str s => .str s
  | .arr vs => .arr (definedAll vs)
  | .obj fields => .obj (definedFields fields)

def definedAll : List Value → List JsonValue
  | [] => []
  | v :: vs => defined v :: definedAll vs

def definedFields : List (Units × Option Value) → List (Units × JsonValue)
  | [] => []
  | f :: fs => definedField f ++ definedFields fs

def definedField : Units × Option Value → List (Units × JsonValue)
  | (_, none) => []
  | (key, some v) => [(key, defined v)]
end

end Value

/-- The defined entries of an object, each value under `g`. -/
def entries {β : Type} (g : Value → β) (fields : List (Units × Option Value)) : List (Units × β) :=
  fields.filterMap fun f => f.2.map fun v => (f.1, g v)

/-- Undefined members are dropped within the elements of an array. -/
@[simp] lemma defined_arr (vs : List Value) : (Value.arr vs).defined = .arr (vs.map Value.defined) := by
  rw [Value.defined]
  induction vs with
  | nil => rfl
  | cons v vs ih =>
    rw [Value.definedAll, List.map_cons, JsonValue.arr.inj ih]

/-- Undefined members of an object are dropped. -/
@[simp] lemma defined_obj (fields : List (Units × Option Value)) :
    (Value.obj fields).defined = .obj (entries Value.defined fields) := by
  rw [Value.defined]
  induction fields with
  | nil => rfl
  | cons f fs ih =>
    obtain ⟨key, entry⟩ := f
    rw [Value.definedFields, JsonValue.obj.inj ih]
    cases entry with
    | none => rfl
    | some v => rfl

/-! ## sortValue -/

/-- `localeCompare` as the order that `sort` uses: total and transitive; two keys may compare as
equal. -/
structure Collation where
  le : Units → Units → Bool
  total : ∀ s t, le s t = true ∨ le t s = true
  trans : ∀ s t u, le s t = true → le t u = true → le s u = true

/-- `entries.sort(([left], [right]) => left.localeCompare(right))`, a stable sort. -/
def sortEntries {β : Type} (c : Collation) (es : List (Units × β)) : List (Units × β) :=
  es.insertionSort fun f g => c.le f.1 g.1 = true

/-- A key that is an array index. -/
def isIndex (key : Units) : Bool :=
  decide (decimalUnits (decimalValue key) = key ∧ decimalValue key < 4294967295)

/-- The order of the properties that `Object.fromEntries` makes: array indices first. -/
def fromEntries {β : Type} (es : List (Units × β)) : List (Units × β) :=
  (es.filter fun f => isIndex f.1).insertionSort (fun f g => decimalValue f.1 ≤ decimalValue g.1) ++
    es.filter fun f => !isIndex f.1

mutual
def sortValue (c : Collation) : Value → JsonValue
  | .null => .null
  | .bool b => .bool b
  | .num n => .num n
  | .str s => .str s
  | .arr vs => .arr (sortAll c vs)
  | .obj fields => .obj (fromEntries (sortEntries c (sortFields c fields)))

def sortAll (c : Collation) : List Value → List JsonValue
  | [] => []
  | v :: vs => sortValue c v :: sortAll c vs

def sortFields (c : Collation) : List (Units × Option Value) → List (Units × JsonValue)
  | [] => []
  | f :: fs => sortField c f ++ sortFields c fs

def sortField (c : Collation) : Units × Option Value → List (Units × JsonValue)
  | (_, none) => []
  | (key, some v) => [(key, sortValue c v)]
end

/-- The elements of an array keep their order. -/
@[simp] lemma sortValue_arr (c : Collation) (vs : List Value) :
    sortValue c (.arr vs) = .arr (vs.map (sortValue c)) := by
  rw [sortValue]
  refine congrArg JsonValue.arr ?_
  induction vs with
  | nil => rfl
  | cons v vs ih => rw [sortAll, ih, List.map_cons]

/-- The members of an object are sorted, and an object orders its own keys. -/
@[simp] lemma sortValue_obj (c : Collation) (fields : List (Units × Option Value)) :
    sortValue c (.obj fields) = .obj (fromEntries (sortEntries c (entries (sortValue c) fields))) := by
  have hfields : sortFields c fields = entries (sortValue c) fields := by
    induction fields with
    | nil => rfl
    | cons f fs ih =>
      obtain ⟨key, entry⟩ := f
      rw [sortFields, ih]
      cases entry with
      | none => rfl
      | some v => rfl
  rw [sortValue, hfields]

/-! ## JSON.stringify with an indent -/

def isHigh (c : UInt16) : Bool :=
  decide (0xd800 ≤ c ∧ c < 0xdc00)

def isLow (c : UInt16) : Bool :=
  decide (0xdc00 ≤ c ∧ c < 0xe000)

/-- A code unit that belongs to no surrogate pair. -/
def quoteUnit (c : UInt16) : Units :=
  if isHigh c ∨ isLow c then units "\\u" ++ hex4 c else jcsUnit c

/-- `QuoteJSONString` without the quotation marks: surrogate pairs are literal. -/
def quoteUnits : Units → Units
  | [] => []
  | [c] => quoteUnit c
  | c :: d :: rest =>
    if isHigh c ∧ isLow d then c :: d :: quoteUnits rest
    else quoteUnit c ++ quoteUnits (d :: rest)

def quote (s : Units) : Units :=
  unit '"' :: (quoteUnits s ++ [unit '"'])

/-- A hexadecimal digit is printable. -/
lemma hexTable_printable (n : UInt16) : 0x20 ≤ hexTable.getD (n &&& 0xf).toNat 0 := by
  have hall : ∀ d : Fin 16, 0x20 ≤ hexTable.getD d.val 0 := by decide
  have hlt : (n &&& 0xf).toNat < 16 := by
    rw [and_fifteen_toNat]
    exact Nat.mod_lt _ (by decide)
  exact hall ⟨_, hlt⟩

/-- So are the four digits of an escape. -/
lemma hex4_printable (n : UInt16) : ∀ c ∈ hex4 n, 0x20 ≤ c := by
  simp only [hex4, List.forall_mem_cons, hexTable_printable, true_and]
  exact List.forall_mem_nil _

/-- So is a unit as the canonical text writes it. -/
lemma jcsUnit_printable (c : UInt16) : ∀ d ∈ jcsUnit c, 0x20 ≤ d := by
  unfold jcsUnit
  split_ifs with h1 h2
  · rcases h1 with rfl | rfl
    · decide
    · decide
  · exact List.forall_mem_singleton.2 h2
  · decide
  · decide
  · decide
  · decide
  · decide
  · exact List.forall_mem_append.2 ⟨by decide, hex4_printable c⟩

/-- So is a unit as `JSON.stringify` writes it. -/
lemma quoteUnit_printable (c : UInt16) : ∀ d ∈ quoteUnit c, 0x20 ≤ d := by
  unfold quoteUnit
  split_ifs
  · exact List.forall_mem_append.2 ⟨by decide, hex4_printable c⟩
  · exact jcsUnit_printable c

/-- A quoted text has no control unit. -/
lemma quoteUnits_printable (s : Units) : ∀ c ∈ quoteUnits s, 0x20 ≤ c := by
  induction s using quoteUnits.induct with
  | case1 => exact List.forall_mem_nil _
  | case2 c => exact quoteUnit_printable c
  | case3 c d rest hpair ih =>
    have hhigh : 0xd800 ≤ c := (of_decide_eq_true hpair.1).1
    have hlow : 0xdc00 ≤ d := (of_decide_eq_true hpair.2).1
    rw [quoteUnits, if_pos hpair]
    refine List.forall_mem_cons.2 ⟨UInt16.le_trans (by decide) hhigh, ?_⟩
    exact List.forall_mem_cons.2 ⟨UInt16.le_trans (by decide) hlow, ih⟩
  | case4 c d rest hpair ih =>
    rw [quoteUnits, if_neg hpair]
    exact List.forall_mem_append.2 ⟨quoteUnit_printable c, ih⟩

/-- A string is written without control characters. -/
lemma quote_printable (s : Units) : ∀ c ∈ quote s, 0x20 ≤ c := by
  refine List.forall_mem_cons.2 ⟨by decide, List.forall_mem_append.2 ⟨quoteUnits_printable s, ?_⟩⟩
  decide

/-- A unit of a number is printable. -/
lemma isNumberUnit_printable {c : UInt16} (h : isNumberUnit c = true) : 0x20 ≤ c := by
  simp only [isNumberUnit, isDigit, Bool.or_eq_true, Bool.and_eq_true, decide_eq_true_eq] at h
  rcases h with ((((⟨h, -⟩ | rfl) | rfl) | rfl) | rfl) | rfl
  · exact UInt16.le_trans (by decide) h
  · decide
  · decide
  · decide
  · decide
  · decide

/-- A number is written in printable units. -/
lemma serializeNumber_printable (fmt : NumberFormat) (n : Number) :
    ∀ c ∈ serializeNumber fmt n, 0x20 ≤ c := by
  unfold serializeNumber
  split_ifs with hzero
  · decide
  · exact fun c hc => isNumberUnit_printable (fmt.format_units n hzero c hc)

/-- A line break and the indent of the next line. -/
def line (indent : Units) : Units :=
  0x0a :: indent

def deeper (indent : Units) : Units :=
  0x20 :: 0x20 :: indent

/-- The parts after the first, each on its line. -/
def blockRest (indent : Units) : List Units → Units
  | [] => []
  | t :: ts => unit ',' :: (line indent ++ t ++ blockRest indent ts)

/-- The parts of an array or of an object between its brackets. -/
def block (opening closing : UInt16) (indent : Units) : List Units → Units
  | [] => [opening, closing]
  | t :: ts =>
    opening :: (line (deeper indent) ++ t ++ blockRest (deeper indent) ts ++ line indent ++ [closing])

/-- A member of an object. -/
def memberText (key text : Units) : Units :=
  quote key ++ unit ':' :: 0x20 :: text

mutual
/-- `JSON.stringify(value, null, 2)` inside `indent`. -/
def pretty (fmt : NumberFormat) (indent : Units) : JsonValue → Units
  | .null => units "null"
  | .bool b => if b then units "true" else units "false"
  | .num n => serializeNumber fmt n
  | .str s => quote s
  | .arr vs => block (unit '[') (unit ']') indent (prettyAll fmt (deeper indent) vs)
  | .obj fields => block (unit '\x7b') (unit '\x7d') indent (prettyFields fmt (deeper indent) fields)

def prettyAll (fmt : NumberFormat) (indent : Units) : List JsonValue → List Units
  | [] => []
  | v :: vs => pretty fmt indent v :: prettyAll fmt indent vs

def prettyFields (fmt : NumberFormat) (indent : Units) : List (Units × JsonValue) → List Units
  | [] => []
  | f :: fs => prettyField fmt indent f :: prettyFields fmt indent fs

def prettyField (fmt : NumberFormat) (indent : Units) : Units × JsonValue → Units
  | (key, v) => memberText key (pretty fmt indent v)
end

/-- An array is a block of its elements. -/
lemma pretty_arr (fmt : NumberFormat) (indent : Units) (vs : List JsonValue) :
    pretty fmt indent (.arr vs) =
      block (unit '[') (unit ']') indent (vs.map (pretty fmt (deeper indent))) := by
  rw [pretty]
  refine congrArg (block _ _ indent) ?_
  induction vs with
  | nil => rfl
  | cons v vs ih => rw [prettyAll, ih, List.map_cons]

/-- An object is a block of its members. -/
lemma pretty_obj (fmt : NumberFormat) (indent : Units) (fields : List (Units × JsonValue)) :
    pretty fmt indent (.obj fields) = block (unit '\x7b') (unit '\x7d') indent
      (fields.map fun f => memberText f.1 (pretty fmt (deeper indent) f.2)) := by
  rw [pretty]
  refine congrArg (block _ _ indent) ?_
  induction fields with
  | nil => rfl
  | cons f fs ih => rw [prettyFields, ih, List.map_cons, prettyField]

/-- `stableStringify` of a value. -/
def stableText (fmt : NumberFormat) (c : Collation) (v : Value) : Units :=
  pretty fmt [] (sortValue c v)

/-! ## Reading the text -/

/-- White space between the tokens of a text. -/
def Blank (cs : Units) : Prop :=
  ∀ c ∈ cs, isSpace c = true

/-- No indentation is blank. -/
lemma blank_nil : Blank [] := nofun

/-- One level more of indentation is blank. -/
lemma Blank.deeper {indent : Units} (h : Blank indent) : Blank (deeper indent) := by
  intro c hc
  rcases List.mem_cons.1 hc with rfl | hc
  · rfl
  · rcases List.mem_cons.1 hc with rfl | hc
    · rfl
    · exact h c hc

/-- A new line with its indentation is blank. -/
lemma Blank.line {indent : Units} (h : Blank indent) : Blank (line indent) := by
  intro c hc
  rcases List.mem_cons.1 hc with rfl | hc
  · rfl
  · exact h c hc

/-- The four spaces of JSON. -/
lemma space_cases {c : UInt16} (h : isSpace c = true) :
    c = 0x20 ∨ c = 0x09 ∨ c = 0x0a ∨ c = 0x0d := by
  simpa [isSpace, or_assoc] using h

/-- A space is no part of a number. -/
lemma isNumberUnit_space {c : UInt16} (h : isSpace c = true) : isNumberUnit c = false := by
  rcases space_cases h with rfl | rfl | rfl | rfl <;> rfl

section reading
variable {fmt : NumberFormat} {stack : List Frame}

/-- The digits after a `\u`. -/
lemma run_hex (goal : Goal) (done : Units) (c : UInt16) :
    run fmt (.text goal done .none, stack) (units "\\u" ++ hex4 c) =
      some (.text goal (done ++ [c]) .none, stack) := by
  have hopen : run fmt (.text goal done .none, stack) (units "\\u") =
      some (.text goal done (.hex []), stack) := rfl
  rw [run_append, hopen]
  simp only [hex4, run_cons, run_nil, AuditChain.read, readText, hexDigit_hexTable, Option.map_some,
    Option.bind_some, List.nil_append, List.cons_append, hex4_value]

/-- A literal character of a string. -/
lemma run_literal (goal : Goal) (done : Units) {c : UInt16} (hquote : c ≠ unit '"')
    (hslash : c ≠ unit '\\') (hcontrol : 0x20 ≤ c) :
    AuditChain.read fmt (.text goal done .none, stack) c = some (.text goal (done ++ [c]) .none, stack) := by
  simp [AuditChain.read, readText, hquote, hslash, UInt16.not_lt.2 hcontrol]

/-- The reader reads a unit of the canonical text back. -/
lemma run_jcsUnit (goal : Goal) (done : Units) (c : UInt16) :
    run fmt (.text goal done .none, stack) (jcsUnit c) =
      some (.text goal (done ++ [c]) .none, stack) := by
  unfold jcsUnit
  split_ifs with h1 h2 h3 h4 h5 h6 h7
  · rcases h1 with rfl | rfl <;> rfl
  · rw [run_cons, run_literal goal done (fun h => h1 (.inl h)) (fun h => h1 (.inr h)) h2]
    rfl
  · subst h3
    rfl
  · subst h4
    rfl
  · subst h5
    rfl
  · subst h6
    rfl
  · subst h7
    rfl
  · exact run_hex goal done c

/-- The reader reads a quoted unit back. -/
lemma run_quoteUnit (goal : Goal) (done : Units) (c : UInt16) :
    run fmt (.text goal done .none, stack) (quoteUnit c) =
      some (.text goal (done ++ [c]) .none, stack) := by
  unfold quoteUnit
  split_ifs
  · exact run_hex goal done c
  · exact run_jcsUnit goal done c

/-- Half of a surrogate pair is a literal character. -/
lemma run_surrogate (goal : Goal) (done : Units) {c : UInt16} (h : 0xd800 ≤ c) :
    AuditChain.read fmt (.text goal done .none, stack) c = some (.text goal (done ++ [c]) .none, stack) := by
  have hne (d : UInt16) (hd : d < 0xd800) : c ≠ d := by
    rintro rfl
    exact UInt16.not_lt.2 h hd
  exact run_literal goal done (hne _ (by decide)) (hne _ (by decide))
    (UInt16.le_trans (by decide) h)

/-- The reader reads a quoted text back. -/
lemma run_quoteUnits (goal : Goal) (done s : Units) :
    run fmt (.text goal done .none, stack) (quoteUnits s) =
      some (.text goal (done ++ s) .none, stack) := by
  induction s using quoteUnits.induct generalizing done with
  | case1 => rw [quoteUnits, run_nil, List.append_nil]
  | case2 c => rw [quoteUnits, run_quoteUnit]
  | case3 c d rest hpair ih =>
    have hhigh : 0xd800 ≤ c := (of_decide_eq_true hpair.1).1
    have hlow : 0xd800 ≤ d := UInt16.le_trans (by decide) (of_decide_eq_true hpair.2).1
    have happ : done ++ c :: d :: rest = done ++ [c] ++ [d] ++ rest := by simp
    rw [quoteUnits, if_pos hpair, run_cons, run_surrogate goal done hhigh, Option.bind_some, run_cons,
      run_surrogate goal _ hlow, Option.bind_some, ih, happ]
  | case4 c d rest hpair ih =>
    have happ : done ++ c :: d :: rest = done ++ [c] ++ d :: rest := by simp
    rw [quoteUnits, if_neg hpair, run_append, run_quoteUnit, Option.bind_some, ih, happ]

/-- A string is read as it was written, once its first quotation mark is. -/
lemma run_quote (goal : Goal) (s : Units) :
    run fmt (.text goal [] .none, stack) (quoteUnits s ++ [unit '"']) =
      some (goal.close s, stack) := by
  rw [run_append, run_quoteUnits]
  rfl

/-- A quoted text is read as its text. -/
lemma reads_quote (s : Units) : Reads fmt (.str s) (quote s) := by
  refine ⟨⟨_, _, rfl, by decide, by decide⟩, fun stack => ⟨(.after (.str s), stack), ?_, rfl⟩⟩
  exact run_quote .value s

/-- White space where it is skipped. -/
lemma run_blank {s : State} (hs : ∀ c, isSpace c = true → AuditChain.read fmt s c = some s) {cs : Units}
    (h : Blank cs) (ds : Units) : run fmt s (cs ++ ds) = run fmt s ds := by
  induction cs with
  | nil => rfl
  | cons c cs ih =>
    obtain ⟨hc, hcs⟩ := List.forall_mem_cons.1 h
    rw [List.cons_append, run_cons, hs c hc, Option.bind_some, ih hcs]

/-- A space in front of a value is skipped. -/
lemma read_value_space (c : UInt16) (h : isSpace c = true) :
    AuditChain.read fmt (.value, stack) c = some (.value, stack) := by
  simp [AuditChain.read, h]

/-- White space after a value. -/
lemma run_settled {s : State} {v : JsonValue} (hs : settle fmt s = some (v, stack)) {indent : Units}
    (h : Blank indent) (ds : Units) :
    run fmt s (line indent ++ ds) = run fmt (.after v, stack) ds := by
  have hbreak : readAfter v stack 0x0a = some (.after v, stack) := rfl
  have hafter : ∀ c, isSpace c = true → AuditChain.read fmt (.after v, stack) c = some (.after v, stack) := by
    intro c hc
    simp [AuditChain.read, readAfter, hc]
  rw [line, List.cons_append, run_cons, read_settled hs (isNumberUnit_space rfl), hbreak,
    Option.bind_some]
  exact run_blank hafter h ds

section parts
variable {α : Type} {val : α → JsonValue} {txt : α → Units} {indent outer : Units}

/-- The rest of an array, from its first comma on. -/
lemma run_blockElements {xs : List α} (h : ∀ x ∈ xs, Reads fmt (val x) (txt x))
    (hindent : Blank indent) (houter : Blank outer) {s : State} {done : List JsonValue} {v : JsonValue}
    (hs : settle fmt s = some (v, .arr done :: stack)) :
    run fmt s (blockRest indent (xs.map txt) ++ (line outer ++ [unit ']'])) =
      some (.after (.arr (done ++ v :: xs.map val)), stack) := by
  induction xs generalizing s done v with
  | nil =>
    rw [List.map_nil, blockRest, List.nil_append, run_settled hs houter]
    rfl
  | cons x xs ih =>
    obtain ⟨hx, hxs⟩ := List.forall_mem_cons.1 h
    obtain ⟨s', hrun, hs'⟩ := hx.reads (.arr (done ++ [v]) :: stack)
    have hcomma : readAfter v (.arr done :: stack) (unit ',') =
        some (.value, .arr (done ++ [v]) :: stack) := rfl
    rw [List.map_cons, blockRest, List.cons_append, run_cons, read_settled hs (by decide), hcomma,
      Option.bind_some, List.append_assoc, List.append_assoc,
      run_blank read_value_space hindent.line, run_append, hrun, Option.bind_some, ih hxs hs',
      List.append_assoc]
    rfl

/-- A block of elements that are read is read as the array. -/
lemma reads_block_arr {xs : List α} (h : ∀ x ∈ xs, Reads fmt (val x) (txt x))
    (houter : Blank outer) :
    Reads fmt (.arr (xs.map val)) (block (unit '[') (unit ']') outer (xs.map txt)) := by
  cases xs with
  | nil =>
    exact ⟨⟨_, _, rfl, by decide, by decide⟩, fun stack => ⟨(.after (.arr []), stack), rfl, rfl⟩⟩
  | cons x xs =>
    refine ⟨⟨_, _, rfl, by decide, by decide⟩,
      fun stack => ⟨(.after (.arr ((x :: xs).map val)), stack), ?_, rfl⟩⟩
    obtain ⟨hx, hxs⟩ := List.forall_mem_cons.1 h
    obtain ⟨s, hrun, hs⟩ := hx.reads (.arr [] :: stack)
    obtain ⟨c, cs, htext, hspace, hend⟩ := hx.head
    have hskip : ∀ c, isSpace c = true →
        AuditChain.read fmt (.firstElement, stack) c = some (.firstElement, stack) := by
      intro c hc
      simp [AuditChain.read, hc]
    have hfirst (ds : Units) : run fmt (.firstElement, stack) (txt x ++ ds) =
        run fmt (.value, .arr [] :: stack) (txt x ++ ds) := by
      rw [htext, List.cons_append, run_cons, run_cons]
      simp [AuditChain.read, hspace, hend]
    show run fmt (.firstElement, stack) (line (deeper outer) ++ txt x ++
      blockRest (deeper outer) (xs.map txt) ++ line outer ++ [unit ']']) = _
    rw [List.append_assoc, List.append_assoc, List.append_assoc,
      run_blank hskip houter.deeper.line, hfirst, run_append, hrun, Option.bind_some,
      run_blockElements hxs houter.deeper houter hs]
    rfl

/-- A member, read where one is expected. -/
lemma run_memberText {f : Units × α} (h : Reads fmt (val f.2) (txt f.2))
    (done : List (Units × JsonValue)) (stack : List Frame) :
    ∃ s, run fmt (.member done, stack) (memberText f.1 (txt f.2)) = some s ∧
      settle fmt s = some (val f.2, .obj done f.1 :: stack) := by
  obtain ⟨s, hrun, hs⟩ := h.reads (.obj done f.1 :: stack)
  refine ⟨s, ?_, hs⟩
  show run fmt (.text (.key done) [] .none, stack)
    (quoteUnits f.1 ++ [unit '"'] ++ unit ':' :: 0x20 :: txt f.2) = _
  rw [run_append, run_quote, Option.bind_some]
  exact hrun

/-- The rest of an object, from its first comma on. -/
lemma run_blockMembers {fs : List (Units × α)} (h : ∀ f ∈ fs, Reads fmt (val f.2) (txt f.2))
    (hindent : Blank indent) (houter : Blank outer) {s : State} {done : List (Units × JsonValue)}
    {key : Units} {v : JsonValue} (hs : settle fmt s = some (v, .obj done key :: stack))
    (hnodup : (done.map Prod.fst ++ key :: fs.map Prod.fst).Nodup) :
    run fmt s (blockRest indent (fs.map fun f => memberText f.1 (txt f.2)) ++
        (line outer ++ [unit '\x7d'])) =
      some (.after (.obj (done ++ (key, v) :: fs.map fun f => (f.1, val f.2))), stack) := by
  -- induction on the members that are left
  induction fs generalizing s done key v with
  | nil =>
    have hset := setProperty_new v fun hmem =>
      (List.nodup_append.1 hnodup).2.2 key hmem key (List.mem_cons_self ..) rfl
    have hafter : readAfter v (.obj done key :: stack) (unit '\x7d') =
        some (.after (.obj (setProperty done key v)), stack) := rfl
    rw [List.map_nil, blockRest, List.nil_append, run_settled hs houter, run_cons]
    show (readAfter v (.obj done key :: stack) (unit '\x7d')).bind _ = _
    rw [hafter, hset]
    rfl
  | cons f fs ih =>
    obtain ⟨hf, hfs⟩ := List.forall_mem_cons.1 h
    have hset := setProperty_new v fun hmem =>
      (List.nodup_append.1 hnodup).2.2 key hmem key (List.mem_cons_self ..) rfl
    obtain ⟨s', hrun, hs'⟩ := run_memberText hf (done ++ [(key, v)]) stack
    have hcomma : readAfter v (.obj done key :: stack) (unit ',') =
        some (.member (setProperty done key v), stack) := rfl
    have hskip : ∀ c, isSpace c = true → AuditChain.read fmt (.member (done ++ [(key, v)]), stack) c =
        some (.member (done ++ [(key, v)]), stack) := by
      intro c hc
      simp [AuditChain.read, hc]
    rw [List.map_cons, blockRest, List.cons_append, run_cons, read_settled hs (by decide), hcomma,
      Option.bind_some, hset, List.append_assoc, List.append_assoc,
      run_blank hskip hindent.line, run_append, hrun, Option.bind_some,
      ih hfs hs' (by simpa using hnodup), List.append_assoc]
    rfl

/-- A block of members that are read is read as the object, if no key is written twice. -/
lemma reads_block_obj {fs : List (Units × α)} (h : ∀ f ∈ fs, Reads fmt (val f.2) (txt f.2))
    (hnodup : (fs.map Prod.fst).Nodup) (houter : Blank outer) :
    Reads fmt (.obj (fs.map fun f => (f.1, val f.2))) (block (unit '\x7b') (unit '\x7d') outer
      (fs.map fun f => memberText f.1 (txt f.2))) := by
  cases fs with
  | nil =>
    exact ⟨⟨_, _, rfl, by decide, by decide⟩, fun stack => ⟨(.after (.obj []), stack), rfl, rfl⟩⟩
  | cons f fs =>
    refine ⟨⟨_, _, rfl, by decide, by decide⟩,
      fun stack => ⟨(.after (.obj ((f :: fs).map fun f => (f.1, val f.2))), stack), ?_, rfl⟩⟩
    obtain ⟨hf, hfs⟩ := List.forall_mem_cons.1 h
    obtain ⟨s, hrun, hs⟩ := run_memberText hf [] stack
    have hskip : ∀ c, isSpace c = true →
        AuditChain.read fmt (.firstMember, stack) c = some (.firstMember, stack) := by
      intro c hc
      simp [AuditChain.read, hc]
    have hfirst (ds : Units) : run fmt (.firstMember, stack) (memberText f.1 (txt f.2) ++ ds) =
        run fmt (.member [], stack) (memberText f.1 (txt f.2) ++ ds) := rfl
    show run fmt (.firstMember, stack) (line (deeper outer) ++ memberText f.1 (txt f.2) ++
      blockRest (deeper outer) (fs.map fun f => memberText f.1 (txt f.2)) ++ line outer ++
        [unit '\x7d']) = _
    rw [List.append_assoc, List.append_assoc, List.append_assoc,
      run_blank hskip houter.deeper.line, hfirst, run_append, hrun, Option.bind_some,
      run_blockMembers hfs houter.deeper houter hs hnodup]
    rfl

end parts

end reading

/-! ## What the text shows -/

mutual
/-- The value with every zero without its sign: so much of a number is in the text. -/
def unsign : JsonValue → JsonValue
  | .null => .null
  | .bool b => .bool b
  | .num n => .num n.unsigned
  | .str s => .str s
  | .arr vs => .arr (unsignAll vs)
  | .obj fields => .obj (unsignFields fields)

def unsignAll : List JsonValue → List JsonValue
  | [] => []
  | v :: vs => unsign v :: unsignAll vs

def unsignFields : List (Units × JsonValue) → List (Units × JsonValue)
  | [] => []
  | f :: fs => unsignField f :: unsignFields fs

def unsignField : Units × JsonValue → Units × JsonValue
  | (key, v) => (key, unsign v)
end

/-- The sign of a zero is lost within the elements of an array. -/
lemma unsign_arr (vs : List JsonValue) : unsign (.arr vs) = .arr (vs.map unsign) := by
  rw [unsign]
  refine congrArg JsonValue.arr ?_
  induction vs with
  | nil => rfl
  | cons v vs ih => rw [unsignAll, ih, List.map_cons]

/-- The sign of a zero is lost within the members of an object. -/
lemma unsign_obj (fields : List (Units × JsonValue)) :
    unsign (.obj fields) = .obj (fields.map fun f => (f.1, unsign f.2)) := by
  rw [unsign]
  refine congrArg JsonValue.obj ?_
  induction fields with
  | nil => rfl
  | cons f fs ih => rw [unsignFields, ih, List.map_cons, unsignField]

/-- Leaving the signs of zeros out leaves the keys as they are. -/
lemma distinct_unsign {v : JsonValue} (hv : v.Distinct) : (unsign v).Distinct := by
  induction v with
  | null => trivial
  | bool b => trivial
  | num n => trivial
  | str s => trivial
  | arr vs ih =>
    rw [JsonValue.distinct_arr] at hv
    rw [unsign_arr, JsonValue.distinct_arr, List.forall_mem_map]
    exact fun v hmem => ih v hmem (hv v hmem)
  | obj fields ih =>
    obtain ⟨hnodup, hfields⟩ := JsonValue.distinct_obj.1 hv
    rw [unsign_obj, JsonValue.distinct_obj, JsonValue.keys_map, List.forall_mem_map]
    exact ⟨hnodup, fun f hf => ih f hf (hfields f hf)⟩

/-- The text of a value is read back. -/
lemma reads_pretty (fmt : NumberFormat) {v : JsonValue} (hv : v.Distinct) {indent : Units}
    (hindent : Blank indent) : Reads fmt (unsign v) (pretty fmt indent v) := by
  induction v generalizing indent with
  | null => exact reads_word .null
  | bool b =>
    cases b with
    | true => exact reads_word .true
    | false => exact reads_word .false
  | num n =>
    rw [unsign, pretty, serializeNumber_unsigned]
    exact reads_num n.unsigned_ne_negZero
  | str s => exact reads_quote s
  | arr vs ih =>
    rw [JsonValue.distinct_arr] at hv
    rw [unsign_arr, pretty_arr]
    exact reads_block_arr (fun v hmem => ih v hmem (hv v hmem) hindent.deeper) hindent
  | obj fields ih =>
    obtain ⟨hnodup, hfields⟩ := JsonValue.distinct_obj.1 hv
    rw [unsign_obj, pretty_obj]
    exact reads_block_obj (fun f hf => ih f hf (hfields f hf) hindent.deeper) hnodup hindent

/-- The pretty text of a value is parsed as the value, apart from the sign of a zero. -/
lemma parse_pretty (fmt : NumberFormat) {v : JsonValue} (hv : v.Distinct) :
    parse fmt (pretty fmt [] v) = some (unsign v) := by
  obtain ⟨s, hrun, hs⟩ := (reads_pretty fmt hv blank_nil).reads []
  unfold parse
  rw [hrun, Option.bind_some, hs]

/-- The sign of a zero does not show. -/
lemma pretty_unsign (fmt : NumberFormat) (v : JsonValue) (indent : Units) :
    pretty fmt indent (unsign v) = pretty fmt indent v := by
  induction v generalizing indent with
  | null => rfl
  | bool b => rfl
  | num n =>
    rw [unsign, pretty, pretty, serializeNumber_unsigned, serializeNumber_unsigned,
      Number.unsigned_unsigned]
  | str s => rfl
  | arr vs ih =>
    rw [unsign_arr, pretty_arr, pretty_arr, List.map_map]
    exact congrArg (block _ _ indent) (List.map_congr_left fun v hv => ih v hv _)
  | obj fields ih =>
    rw [unsign_obj, pretty_obj, pretty_obj, List.map_map]
    refine congrArg (block _ _ indent) (List.map_congr_left fun f hf => ?_)
    exact congrArg (memberText f.1) (ih f hf _)

/-! ## Sorted values -/

/-- The entries of an object as `sortValue` arranges them. -/
def arrange {β : Type} (c : Collation) (es : List (Units × β)) : List (Units × β) :=
  fromEntries (sortEntries c es)

/-- No two keys compare as equal. -/
def ApartKeys (c : Collation) (keys : List Units) : Prop :=
  keys.Pairwise fun s t => ¬ (c.le s t = true ∧ c.le t s = true)

mutual
/-- In no object two keys compare as equal. -/
def Apart (c : Collation) : JsonValue → Prop
  | .null => True
  | .bool _ => True
  | .num _ => True
  | .str _ => True
  | .arr vs => ApartAll c vs
  | .obj fields => ApartKeys c (fields.map Prod.fst) ∧ ApartFields c fields

def ApartAll (c : Collation) : List JsonValue → Prop
  | [] => True
  | v :: vs => Apart c v ∧ ApartAll c vs

def ApartFields (c : Collation) : List (Units × JsonValue) → Prop
  | [] => True
  | f :: fs => ApartField c f ∧ ApartFields c fs

def ApartField (c : Collation) : Units × JsonValue → Prop
  | (_, v) => Apart c v
end

section sorted
variable {β γ : Type} {c : Collation}

/-- The keys within an array are told apart element by element. -/
@[simp] lemma apart_arr {vs : List JsonValue} : Apart c (.arr vs) ↔ ∀ v ∈ vs, Apart c v := by
  rw [Apart]
  induction vs with
  | nil => simp [ApartAll]
  | cons v vs ih => rw [ApartAll, ih, List.forall_mem_cons]

/-- The keys of an object are told apart at the object and within its members. -/
@[simp] lemma apart_obj {fields : List (Units × JsonValue)} :
    Apart c (.obj fields) ↔ ApartKeys c (fields.map Prod.fst) ∧ ∀ f ∈ fields, Apart c f.2 := by
  rw [Apart]
  refine and_congr Iff.rfl ?_
  induction fields with
  | nil => simp [ApartFields]
  | cons f fs ih =>
    obtain ⟨key, v⟩ := f
    rw [ApartFields, ApartField, ih, List.forall_mem_cons]

/-- An object has the entries it is made from. -/
lemma fromEntries_perm (es : List (Units × β)) : (fromEntries es).Perm es :=
  ((List.perm_insertionSort _ _).append_right _).trans (List.filter_append_perm _ es)

/-- Arranged entries are the entries. -/
lemma arrange_perm (es : List (Units × β)) : (arrange c es).Perm es :=
  (fromEntries_perm _).trans (List.perm_insertionSort _ _)

/-- The sorting looks at the keys alone. -/
lemma sortEntries_map (g : β → γ) (es : List (Units × β)) :
    sortEntries c (es.map fun f => (f.1, g f.2)) = (sortEntries c es).map fun f => (f.1, g f.2) := by
  unfold sortEntries
  symm
  apply List.map_insertionSort
  exact fun _ _ _ _ => Iff.rfl

/-- So does an object's own order. -/
lemma fromEntries_map (g : β → γ) (es : List (Units × β)) :
    fromEntries (es.map fun f => (f.1, g f.2)) = (fromEntries es).map fun f => (f.1, g f.2) := by
  unfold fromEntries
  rw [List.filter_map, List.filter_map, List.map_append]
  refine congrArg₂ (· ++ ·) ?_ rfl
  symm
  apply List.map_insertionSort
  exact fun _ _ _ _ => Iff.rfl

/-- So does the arrangement. -/
lemma arrange_map (g : β → γ) (es : List (Units × β)) :
    arrange c (es.map fun f => (f.1, g f.2)) = (arrange c es).map fun f => (f.1, g f.2) := by
  rw [arrange, sortEntries_map, fromEntries_map, arrange]

/-- Sorted entries are in the order of the collation. -/
lemma sortEntries_sorted (es : List (Units × β)) :
    (sortEntries c es).Pairwise fun f g => c.le f.1 g.1 = true := by
  have : Std.Total fun f g : Units × β => c.le f.1 g.1 = true := ⟨fun f g => c.total f.1 g.1⟩
  have : IsTrans (Units × β) fun f g => c.le f.1 g.1 = true := ⟨fun f g h => c.trans f.1 g.1 h.1⟩
  exact List.pairwise_insertionSort _ _

/-- Entries whose keys are told apart have one order. -/
lemma arrange_eq_of_perm {es es' : List (Units × β)} (hperm : es.Perm es')
    (hnodup : (es.map Prod.fst).Nodup) (hapart : ApartKeys c (es.map Prod.fst)) :
    arrange c es = arrange c es' := by
  refine congrArg fromEntries (List.Perm.eq_of_pairwise ?_ (sortEntries_sorted es)
    (sortEntries_sorted es') (((List.perm_insertionSort _ _).trans hperm).trans
      (List.perm_insertionSort _ _).symm))
  intro f g hf hg hle hge
  have hf' : f ∈ es := (List.perm_insertionSort _ _).mem_iff.1 hf
  have hg' : g ∈ es := hperm.mem_iff.2 ((List.perm_insertionSort _ _).mem_iff.1 hg)
  have hkey : f.1 = g.1 := by
    by_contra hne
    have hsymm : Std.Symm fun s t => ¬ (c.le s t = true ∧ c.le t s = true) :=
      ⟨fun _ _ h h' => h ⟨h'.2, h'.1⟩⟩
    exact hapart.forall (List.mem_map_of_mem hf') (List.mem_map_of_mem hg') hne ⟨hle, hge⟩
  exact List.inj_on_of_nodup_map hnodup hf' hg' hkey

end sorted

mutual
/-- `sortValue` of a value without undefined entries. -/
def sortKeys (c : Collation) : JsonValue → JsonValue
  | .null => .null
  | .bool b => .bool b
  | .num n => .num n
  | .str s => .str s
  | .arr vs => .arr (sortKeysAll c vs)
  | .obj fields => .obj (arrange c (sortKeysFields c fields))

def sortKeysAll (c : Collation) : List JsonValue → List JsonValue
  | [] => []
  | v :: vs => sortKeys c v :: sortKeysAll c vs

def sortKeysFields (c : Collation) : List (Units × JsonValue) → List (Units × JsonValue)
  | [] => []
  | f :: fs => sortKeysField c f :: sortKeysFields c fs

def sortKeysField (c : Collation) : Units × JsonValue → Units × JsonValue
  | (key, v) => (key, sortKeys c v)
end

section sortKeys
variable {c : Collation}

/-- The keys are sorted within the elements of an array. -/
lemma sortKeys_arr (vs : List JsonValue) : sortKeys c (.arr vs) = .arr (vs.map (sortKeys c)) := by
  rw [sortKeys]
  refine congrArg JsonValue.arr ?_
  induction vs with
  | nil => rfl
  | cons v vs ih => rw [sortKeysAll, ih, List.map_cons]

/-- The keys of an object are arranged, and those within its members. -/
lemma sortKeys_obj (fields : List (Units × JsonValue)) :
    sortKeys c (.obj fields) = .obj ((arrange c fields).map fun f => (f.1, sortKeys c f.2)) := by
  have hfields : sortKeysFields c fields = fields.map fun f => (f.1, sortKeys c f.2) := by
    induction fields with
    | nil => rfl
    | cons f fs ih => rw [sortKeysFields, ih, List.map_cons, sortKeysField]
  rw [sortKeys, hfields, arrange_map]

/-- Undefined entries make no difference to `sortValue`. -/
lemma sortValue_eq (v : Value) : sortValue c v = sortKeys c v.defined := by
  induction v with
  | null => rfl
  | bool b => rfl
  | num n => rfl
  | str s => rfl
  | arr vs ih =>
    rw [sortValue_arr, defined_arr, sortKeys_arr, List.map_map]
    exact congrArg JsonValue.arr (List.map_congr_left ih)
  | obj fields ih =>
    have hentries : entries (sortValue c) fields =
        (entries Value.defined fields).map fun f => (f.1, sortKeys c f.2) := by
      unfold entries
      rw [List.map_filterMap]
      refine List.filterMap_congr fun f hf => ?_
      rw [Option.map_map]
      refine Option.map_congr fun v hv => ?_
      exact Prod.ext rfl (ih f hf v hv)
    rw [sortValue_obj, defined_obj, sortKeys_obj, hentries, ← arrange_map]
    rfl

/-- The arrangement keeps the keys. -/
lemma keys_arrange_perm (fields : List (Units × JsonValue)) :
    ((arrange c fields).map Prod.fst).Perm (fields.map Prod.fst) :=
  (arrange_perm fields).map _

/-- No key is written twice in a sorted value. -/
lemma distinct_sortKeys {v : JsonValue} (hv : v.Distinct) : (sortKeys c v).Distinct := by
  induction v with
  | null => trivial
  | bool b => trivial
  | num n => trivial
  | str s => trivial
  | arr vs ih =>
    rw [JsonValue.distinct_arr] at hv
    rw [sortKeys_arr, JsonValue.distinct_arr]
    intro u hu
    obtain ⟨v, hmem, rfl⟩ := List.mem_map.1 hu
    exact ih v hmem (hv v hmem)
  | obj fields ih =>
    obtain ⟨hnodup, hfields⟩ := JsonValue.distinct_obj.1 hv
    rw [sortKeys_obj, JsonValue.distinct_obj, JsonValue.keys_map]
    refine ⟨(keys_arrange_perm fields).nodup_iff.2 hnodup, fun g hg => ?_⟩
    obtain ⟨f, hf, rfl⟩ := List.mem_map.1 hg
    have hf := (arrange_perm fields).mem_iff.1 hf
    exact ih f hf (hfields f hf)

/-- Sorting by `localeCompare` keeps the normal form. -/
lemma normal_sortKeys {v : JsonValue} (hv : v.Distinct) : (sortKeys c v).normal = v.normal := by
  induction v with
  | null => rfl
  | bool b => rfl
  | num n => rfl
  | str s => rfl
  | arr vs ih =>
    rw [JsonValue.distinct_arr] at hv
    rw [sortKeys_arr, JsonValue.normal_arr, JsonValue.normal_arr, List.map_map]
    exact congrArg JsonValue.arr (List.map_congr_left fun v hmem => ih v hmem (hv v hmem))
  | obj fields ih =>
    obtain ⟨hnodup, hfields⟩ := JsonValue.distinct_obj.1 hv
    have hnodup' := (keys_arrange_perm (c := c) fields).nodup_iff.2 hnodup
    rw [sortKeys_obj, JsonValue.normal_obj, JsonValue.normal_obj, byKey_map, List.map_map,
      byKey_eq_of_perm (arrange_perm fields) hnodup']
    refine congrArg JsonValue.obj (List.map_congr_left fun f hf => ?_)
    have hf := mem_byKey.1 hf
    exact Prod.ext rfl (ih f hf (hfields f hf))

/-- Sorting the normal form of a value whose keys are told apart. -/
lemma sortKeys_normal {v : JsonValue} (hv : v.Distinct) (hapart : Apart c v) :
    sortKeys c v.normal = unsign (sortKeys c v) := by
  induction v with
  | null => rfl
  | bool b => rfl
  | num n => rfl
  | str s => rfl
  | arr vs ih =>
    rw [JsonValue.distinct_arr] at hv
    rw [apart_arr] at hapart
    rw [JsonValue.normal_arr, sortKeys_arr, sortKeys_arr, unsign_arr, List.map_map, List.map_map]
    exact congrArg JsonValue.arr (List.map_congr_left fun v hmem => ih v hmem (hv v hmem)
      (hapart v hmem))
  | obj fields ih =>
    obtain ⟨hnodup, hfields⟩ := JsonValue.distinct_obj.1 hv
    obtain ⟨hkeys, hapart⟩ := apart_obj.1 hapart
    rw [JsonValue.normal_obj, sortKeys_obj, sortKeys_obj, unsign_obj, arrange_map, List.map_map,
      List.map_map, ← arrange_eq_of_perm (byKey_perm fields).symm hnodup hkeys]
    refine congrArg JsonValue.obj (List.map_congr_left fun f hf => ?_)
    have hf := (arrange_perm fields).mem_iff.1 hf
    exact Prod.ext rfl (ih f hf (hfields f hf) (hapart f hf))

end sortKeys

section texts
variable {fmt : NumberFormat} {c : Collation}

/-- Whether keys are told apart does not depend on their order. -/
lemma ApartKeys.perm {keys keys' : List Units} (hperm : keys.Perm keys') (h : ApartKeys c keys) :
    ApartKeys c keys' := by
  refine (hperm.pairwise_iff ?_).1 h
  exact fun hst hts => hst ⟨hts.2, hts.1⟩

/-- Keys that are told apart are so in the normal form too. -/
lemma apart_normal {v : JsonValue} : Apart c v.normal ↔ Apart c v := by
  induction v with
  | null => rfl
  | bool b => rfl
  | num n => rfl
  | str s => rfl
  | arr vs ih =>
    rw [JsonValue.normal_arr, apart_arr, apart_arr, List.forall_mem_map]
    exact forall₂_congr ih
  | obj fields ih =>
    rw [JsonValue.normal_obj, apart_obj, apart_obj, JsonValue.keys_map, List.forall_mem_map]
    have hperm := byKey_keys_perm fields
    refine and_congr ⟨.perm hperm, .perm hperm.symm⟩ ?_
    constructor
    · intro h f hf
      exact (ih f hf).1 (h f (mem_byKey.2 hf))
    · intro h f hf
      have hf := mem_byKey.1 hf
      exact (ih f hf).2 (h f hf)

/-- The sign of a zero does not show in the normal form. -/
lemma normal_unsign (v : JsonValue) : (unsign v).normal = v.normal := by
  induction v with
  | null => rfl
  | bool b => rfl
  | num n => rw [unsign, JsonValue.normal, JsonValue.normal, Number.unsigned_unsigned]
  | str s => rfl
  | arr vs ih =>
    rw [unsign_arr, JsonValue.normal_arr, JsonValue.normal_arr, List.map_map]
    exact congrArg JsonValue.arr (List.map_congr_left ih)
  | obj fields ih =>
    rw [unsign_obj, JsonValue.normal_obj, JsonValue.normal_obj, byKey_map, List.map_map]
    refine congrArg JsonValue.obj (List.map_congr_left fun f hf => ?_)
    exact Prod.ext rfl (ih f (mem_byKey.1 hf))

/-- The stable text is the pretty text of the sorted value. -/
lemma stableText_eq (v : Value) : stableText fmt c v = pretty fmt [] (sortKeys c v.defined) := by
  rw [stableText, sortValue_eq]

/-- Values with one text are the same up to the order of the keys and undefined entries. -/
theorem same_of_pretty {v w : JsonValue} (hv : v.Distinct) (hw : w.Distinct)
    (h : pretty fmt [] (sortKeys c v) = pretty fmt [] (sortKeys c w)) : v.Same w := by
  have hread := parse_pretty fmt (distinct_sortKeys (c := c) hv)
  rw [h, parse_pretty fmt (distinct_sortKeys hw)] at hread
  have hnormal := congrArg JsonValue.normal (Option.some.inj hread)
  rw [normal_unsign, normal_unsign, normal_sortKeys hw, normal_sortKeys hv] at hnormal
  exact (JsonValue.same_iff_normal hv hw).2 hnormal.symm

/-- The text of a value does not depend on the order of its keys if `localeCompare` tells them
apart. -/
theorem pretty_of_same {v w : JsonValue} (hv : v.Distinct) (hw : w.Distinct) (hsame : v.Same w)
    (hapart : Apart c v) : pretty fmt [] (sortKeys c v) = pretty fmt [] (sortKeys c w) := by
  have hnormal := (JsonValue.same_iff_normal hv hw).1 hsame
  have hapart' : Apart c w := by
    rw [← apart_normal, ← hnormal, apart_normal]
    exact hapart
  rw [← pretty_unsign fmt (sortKeys c v), ← pretty_unsign fmt (sortKeys c w),
    ← sortKeys_normal hv hapart, ← sortKeys_normal hw hapart', hnormal]

end texts

end NexusClaw.MetadataRuntime
