import NexusClaw.AuditChain.Canonical

/-!
# Reading canonical text

`JSON.parse` on code units, one after the other: the state is a mode and the stack of the arrays and
objects that are still open. A text `Reads` as a value when the reader takes it where a value is
expected and has that value at its end, whatever is still open around it; there is one rule for each
kind of value. The canonical text of a value reads as its normal form, so it is injective up to the
order of keys and the sign of zeros.
-/

namespace NexusClaw.AuditChain

/-! ## Reading -/

/-- An array or an object that is still open; in an object the key whose value is being read. -/
inductive Frame where
  | arr (done : List JsonValue)
  | obj (done : List (Units × JsonValue)) (key : Units)

/-- What a string is read for: a value, or the key of the next member. -/
inductive Goal where
  | value
  | key (done : List (Units × JsonValue))

/-- Where the reader is inside a string. -/
inductive Escape where
  | none
  | backslash
  | hex (digits : List UInt16)

/-- The words of the language that are values. -/
inductive Word where
  | null
  | true
  | false

def Word.units : Word → Units
  | .null => AuditChain.units "null"
  | .true => AuditChain.units "true"
  | .false => AuditChain.units "false"

def Word.value : Word → JsonValue
  | .null => .null
  | .true => .bool Bool.true
  | .false => .bool Bool.false

inductive Mode where
  | value
  | firstElement
  | firstMember
  | member (done : List (Units × JsonValue))
  | colon (done : List (Units × JsonValue)) (key : Units)
  | text (goal : Goal) (read : Units) (escape : Escape)
  | number (read : Units)
  | word (w : Word) (count : Nat)
  | after (v : JsonValue)

abbrev State : Type :=
  Mode × List Frame

def isSpace (c : UInt16) : Bool :=
  c = 0x20 || c = 0x09 || c = 0x0a || c = 0x0d

/-- The value of a digit in base 16. -/
def hexDigit (c : UInt16) : Option UInt16 :=
  if isDigit c then some (c - unit '0')
  else if unit 'a' ≤ c ∧ c ≤ unit 'f' then some (c - unit 'a' + 10)
  else if unit 'A' ≤ c ∧ c ≤ unit 'F' then some (c - unit 'A' + 10)
  else none

/-- The property `key` gets a value: an existing property keeps its place. -/
def setProperty (fields : List (Units × JsonValue)) (key : Units) (v : JsonValue) :
    List (Units × JsonValue) :=
  if key ∈ fields.map Prod.fst then fields.map fun f => if f.1 = key then (key, v) else f
  else fields ++ [(key, v)]

/-- The character that a backslash and `c` stand for; `none` for `\u` and for what is no escape. -/
def shortEscape (c : UInt16) : Option UInt16 :=
  if c = unit '"' ∨ c = unit '\\' ∨ c = unit '/' then some c
  else if c = unit 'b' then some 0x08
  else if c = unit 'f' then some 0x0c
  else if c = unit 'n' then some 0x0a
  else if c = unit 'r' then some 0x0d
  else if c = unit 't' then some 0x09
  else none

/-- The mode after a string. -/
def Goal.close (goal : Goal) (s : Units) : Mode :=
  match goal with
  | .value => .after (.str s)
  | .key done => .colon done s

/-- The next code unit inside a string. -/
def readText (goal : Goal) (read : Units) (escape : Escape) (stack : List Frame) (c : UInt16) :
    Option State :=
  match escape with
  | .none =>
    if c = unit '"' then some (goal.close read, stack)
    else if c = unit '\\' then some (.text goal read .backslash, stack)
    else if c < 0x20 then none
    else some (.text goal (read ++ [c]) .none, stack)
  | .backslash =>
    if c = unit 'u' then some (.text goal read (.hex []), stack)
    else (shortEscape c).map fun d => (.text goal (read ++ [d]) .none, stack)
  | .hex digits =>
    (hexDigit c).map fun d =>
      match digits with
      | [d₁, d₂, d₃] => (.text goal (read ++ [((d₁ * 16 + d₂) * 16 + d₃) * 16 + d]) .none, stack)
      | _ => (.text goal read (.hex (digits ++ [d])), stack)

/-- The first code unit of a value. -/
def readValue (stack : List Frame) (c : UInt16) : Option State :=
  if c = unit '"' then some (.text .value [] .none, stack)
  else if c = unit '[' then some (.firstElement, stack)
  else if c = unit '\x7b' then some (.firstMember, stack)
  else if c = unit 'n' then some (.word .null 1, stack)
  else if c = unit 't' then some (.word .true 1, stack)
  else if c = unit 'f' then some (.word .false 1, stack)
  else if isDigit c ∨ c = unit '-' then some (.number [c], stack)
  else none

/-- The next code unit after a value. -/
def readAfter (v : JsonValue) (stack : List Frame) (c : UInt16) : Option State :=
  if isSpace c then some (.after v, stack)
  else
    match stack with
    | [] => none
    | .arr done :: stack =>
      if c = unit ',' then some (.value, .arr (done ++ [v]) :: stack)
      else if c = unit ']' then some (.after (.arr (done ++ [v])), stack)
      else none
    | .obj done key :: stack =>
      if c = unit ',' then some (.member (setProperty done key v), stack)
      else if c = unit '\x7d' then some (.after (.obj (setProperty done key v)), stack)
      else none

/-- The next code unit of a text. -/
def read (fmt : NumberFormat) (s : State) (c : UInt16) : Option State :=
  match s with
  | (.value, stack) => if isSpace c then some (.value, stack) else readValue stack c
  | (.firstElement, stack) =>
    if isSpace c then some (.firstElement, stack)
    else if c = unit ']' then some (.after (.arr []), stack)
    else readValue (.arr [] :: stack) c
  | (.firstMember, stack) =>
    if isSpace c then some (.firstMember, stack)
    else if c = unit '\x7d' then some (.after (.obj []), stack)
    else if c = unit '"' then some (.text (.key []) [] .none, stack)
    else none
  | (.member done, stack) =>
    if isSpace c then some (.member done, stack)
    else if c = unit '"' then some (.text (.key done) [] .none, stack)
    else none
  | (.colon done key, stack) =>
    if isSpace c then some (.colon done key, stack)
    else if c = unit ':' then some (.value, .obj done key :: stack)
    else none
  | (.text goal read escape, stack) => readText goal read escape stack c
  | (.number read, stack) =>
    if isNumberUnit c then some (.number (read ++ [c]), stack)
    else (fmt.read read).bind fun n => readAfter (.num n) stack c
  | (.word w count, stack) =>
    if w.units[count]? = some c then
      some (if count + 1 = w.units.length then .after w.value else .word w (count + 1), stack)
    else none
  | (.after v, stack) => readAfter v stack c

/-- The code units of a text, one after the other. -/
def run (fmt : NumberFormat) (s : State) (cs : Units) : Option State :=
  cs.foldlM (read fmt) s

/-- The value that a state has read, and the arrays and objects around it. -/
def settle (fmt : NumberFormat) : State → Option (JsonValue × List Frame)
  | (.after v, stack) => some (v, stack)
  | (.number read, stack) => (fmt.read read).map fun n => (.num n, stack)
  | _ => none

/-- `JSON.parse`; no value when it throws. -/
def parse (fmt : NumberFormat) (cs : Units) : Option JsonValue :=
  match (run fmt (.value, []) cs).bind (settle fmt) with
  | some (v, []) => some v
  | _ => none

section reading
variable {fmt : NumberFormat} {stack : List Frame}

/-- The reader at the end. -/
@[simp] lemma run_nil (s : State) : run fmt s [] = some s := rfl

/-- The reader reads one unit after the other. -/
@[simp] lemma run_cons (s : State) (c : UInt16) (cs : Units) :
    run fmt s (c :: cs) = (read fmt s c).bind fun s => run fmt s cs := rfl

/-- The reader reads two texts. -/
lemma run_append (s : State) (cs ds : Units) :
    run fmt s (cs ++ ds) = (run fmt s cs).bind fun s => run fmt s ds :=
  List.foldlM_append

/-! ## Strings -/

/-- The last four bits. -/
lemma and_fifteen_toNat (n : UInt16) : (n &&& 0xf).toNat = n.toNat % 16 := by
  rw [UInt16.toNat_and]
  exact Nat.and_two_pow_sub_one_eq_mod n.toNat 4

/-- A digit of the table is read as its number. -/
lemma hexDigit_hexTable (n : UInt16) :
    hexDigit (hexTable.getD (n &&& 0xf).toNat 0) = some (n &&& 0xf) := by
  have hall : ∀ d : Fin 16, hexDigit (hexTable.getD d.val 0) = some d.val.toUInt16 := by decide
  have hlt : (n &&& 0xf).toNat < 16 := by
    rw [and_fifteen_toNat]
    exact Nat.mod_lt _ (by decide)
  rw [hall ⟨_, hlt⟩]
  exact congrArg some UInt16.ofNat_toNat

/-- The four digits of a code unit. -/
lemma hex4_value (c : UInt16) :
    (((c >>> (12 : UInt16) &&& (0xf : UInt16)) * 16 + (c >>> (8 : UInt16) &&& (0xf : UInt16))) * 16 +
      (c >>> (4 : UInt16) &&& (0xf : UInt16))) * 16 + (c &&& 0xf) = c := by
  apply UInt16.toNat_inj.1
  have hc := c.toNat_lt
  simp only [UInt16.toNat_add, UInt16.toNat_mul, and_fifteen_toNat, UInt16.toNat_shiftRight,
    Nat.shiftRight_eq_div_pow, UInt16.toNat_ofNat, Nat.reducePow, Nat.reduceMod]
  omega

/-- A character is read as it was written. -/
lemma run_serializeUnit (goal : Goal) (done : Units) (c : UInt16) :
    run fmt (.text goal done .none, stack) (serializeUnit c) =
      some (.text goal (done ++ [c]) .none, stack) := by
  unfold serializeUnit
  split_ifs with h1 h2 h3 h4 h5 h6 h7 h8
  · subst h1
    rfl
  · subst h2
    rfl
  · have hcontrol : ¬ c < 0x20 := UInt16.not_lt.2 h3.1
    have hquote : c ≠ unit '"' := h1
    have hslash : c ≠ unit '\\' := h2
    simp [read, readText, hquote, hslash, hcontrol]
  · subst h4
    rfl
  · subst h5
    rfl
  · subst h6
    rfl
  · subst h7
    rfl
  · subst h8
    rfl
  · -- a control character without an escape of its own, or a character from 0x7f on
    have hopen : run fmt (.text goal done .none, stack) [unit '\\', unit 'u'] =
        some (.text goal done (.hex []), stack) := rfl
    have hsplit : unit '\\' :: unit 'u' :: hex4 c = [unit '\\', unit 'u'] ++ hex4 c := rfl
    rw [hsplit, run_append, hopen]
    simp only [hex4, run_cons, run_nil, read, readText, hexDigit_hexTable, Option.map_some,
      Option.bind_some, List.nil_append, List.cons_append, hex4_value]

/-- A text is read back, unit by unit. -/
lemma run_serializeUnits (goal : Goal) (done s : Units) :
    run fmt (.text goal done .none, stack) (s.flatMap serializeUnit) =
      some (.text goal (done ++ s) .none, stack) := by
  induction s generalizing done with
  | nil => rw [List.flatMap_nil, run_nil, List.append_nil]
  | cons c s ih =>
    have happ : done ++ c :: s = done ++ [c] ++ s := by simp
    rw [List.flatMap_cons, run_append, run_serializeUnit, Option.bind_some, ih, happ]

/-- A string is read as it was written, once its first quotation mark is. -/
lemma run_serializeString (goal : Goal) (s : Units) :
    run fmt (.text goal [] .none, stack) (s.flatMap serializeUnit ++ [unit '"']) =
      some (goal.close s, stack) := by
  rw [run_append, run_serializeUnits]
  rfl

/-! ## Rules -/

/-- The text is read as `v` where a value is expected, and its first code unit is neither a space nor
the end of an array. -/
structure Reads (fmt : NumberFormat) (v : JsonValue) (cs : Units) : Prop where
  head : ∃ c rest, cs = c :: rest ∧ isSpace c = false ∧ c ≠ unit ']'
  reads : ∀ stack, ∃ s, run fmt (.value, stack) cs = some s ∧ settle fmt s = some (v, stack)

/-- A code unit that goes on with no number follows a value that is read. -/
lemma read_settled {s : State} {v : JsonValue} (h : settle fmt s = some (v, stack)) {c : UInt16}
    (hc : isNumberUnit c = false) : read fmt s c = readAfter v stack c := by
  obtain ⟨mode, st⟩ := s
  cases mode with
  | after u =>
    obtain ⟨rfl, rfl⟩ := Prod.mk.inj (Option.some.inj h)
    rfl
  | number chars =>
    cases hn : fmt.read chars with
    | none =>
      rw [settle, hn] at h
      cases h
    | some n =>
      rw [settle, hn] at h
      obtain ⟨rfl, rfl⟩ := Prod.mk.inj (Option.some.inj h)
      simp [read, hc, hn]
  | _ => cases h

/-- A word is read. -/
lemma reads_word (w : Word) : Reads fmt w.value w.units := by
  cases w with
  | null => exact ⟨⟨_, _, rfl, by decide, by decide⟩, fun stack => ⟨_, rfl, rfl⟩⟩
  | true => exact ⟨⟨_, _, rfl, by decide, by decide⟩, fun stack => ⟨_, rfl, rfl⟩⟩
  | false => exact ⟨⟨_, _, rfl, by decide, by decide⟩, fun stack => ⟨_, rfl, rfl⟩⟩

/-- A text is read. -/
lemma reads_str (s : Units) : Reads fmt (.str s) (serializeString s) := by
  refine ⟨⟨_, _, rfl, by decide, by decide⟩, fun stack => ⟨(.after (.str s), stack), ?_, rfl⟩⟩
  exact run_serializeString .value s

/-- A digit or a minus is none of the others. -/
lemma digit_ne {c d : UInt16} (h : isDigit c = true ∨ c = unit '-')
    (hd : isDigit d = false ∧ d ≠ unit '-') : c ≠ d := by
  rintro rfl
  rcases h with h | h
  · cases hd.1.symm.trans h
  · exact hd.2 h

/-- The units of a number are collected. -/
lemma run_number {done cs : Units} (h : ∀ c ∈ cs, isNumberUnit c = true) :
    run fmt (.number done, stack) cs = some (.number (done ++ cs), stack) := by
  induction cs generalizing done with
  | nil => rw [run_nil, List.append_nil]
  | cons c cs ih =>
    obtain ⟨hc, hcs⟩ := List.forall_mem_cons.1 h
    have hstep : read fmt (.number done, stack) c = some (.number (done ++ [c]), stack) := by
      simp [read, hc]
    rw [run_cons, hstep, Option.bind_some, ih hcs, List.append_assoc]
    rfl

/-- A number is read, apart from the negative zero. -/
lemma reads_num {n : Number} (hn : n ≠ .negZero) : Reads fmt (.num n) (fmt.format n) := by
  obtain ⟨c, cs, hformat, hc⟩ := fmt.format_head n hn
  have hunits := fmt.format_units n hn
  have hspace : isSpace c = false := by
    have h1 : c ≠ 0x20 := digit_ne hc (by decide)
    have h2 : c ≠ 0x09 := digit_ne hc (by decide)
    have h3 : c ≠ 0x0a := digit_ne hc (by decide)
    have h4 : c ≠ 0x0d := digit_ne hc (by decide)
    simp [isSpace, h1, h2, h3, h4]
  have hfirst (stack : List Frame) : read fmt (.value, stack) c = some (.number [c], stack) := by
    have h1 : c ≠ unit '"' := digit_ne hc (by decide)
    have h2 : c ≠ unit '[' := digit_ne hc (by decide)
    have h3 : c ≠ unit '\x7b' := digit_ne hc (by decide)
    have h4 : c ≠ unit 'n' := digit_ne hc (by decide)
    have h5 : c ≠ unit 't' := digit_ne hc (by decide)
    have h6 : c ≠ unit 'f' := digit_ne hc (by decide)
    simp [read, readValue, hspace, h1, h2, h3, h4, h5, h6, hc]
  rw [hformat] at hunits
  refine ⟨⟨c, cs, hformat, hspace, digit_ne hc (by decide)⟩,
    fun stack => ⟨(.number (c :: cs), stack), ?_, ?_⟩⟩
  · rw [hformat, run_cons, hfirst, Option.bind_some, run_number (List.forall_mem_cons.1 hunits).2]
    rfl
  · rw [settle, ← hformat, fmt.read_format n hn]
    rfl

section parts
variable {α : Type} {val : α → JsonValue} {txt : α → Units}

/-- The rest of an array, from its first comma on. -/
lemma run_elements {xs : List α} (h : ∀ x ∈ xs, Reads fmt (val x) (txt x)) {s : State}
    {done : List JsonValue} {v : JsonValue} (hs : settle fmt s = some (v, .arr done :: stack)) :
    run fmt s (joinRest (xs.map txt) ++ [unit ']']) =
      some (.after (.arr (done ++ v :: xs.map val)), stack) := by
  induction xs generalizing s done v with
  | nil =>
    have hclose : run fmt s [unit ']'] = (read fmt s (unit ']')).bind fun s => run fmt s [] := rfl
    refine hclose.trans ?_
    rw [read_settled hs (by decide)]
    rfl
  | cons x xs ih =>
    obtain ⟨hx, hxs⟩ := List.forall_mem_cons.1 h
    obtain ⟨s', hrun, hs'⟩ := hx.reads (.arr (done ++ [v]) :: stack)
    have hcomma : readAfter v (.arr done :: stack) (unit ',') =
        some (.value, .arr (done ++ [v]) :: stack) := rfl
    rw [List.map_cons, joinRest, List.cons_append, run_cons, read_settled hs (by decide), hcomma,
      Option.bind_some, List.append_assoc, run_append, hrun, Option.bind_some, ih hxs hs',
      List.append_assoc]
    rfl

/-- An array is read if its elements are. -/
lemma reads_arr {xs : List α} (h : ∀ x ∈ xs, Reads fmt (val x) (txt x)) :
    Reads fmt (.arr (xs.map val)) (unit '[' :: (join (xs.map txt) ++ [unit ']'])) := by
  refine ⟨⟨_, _, rfl, by decide, by decide⟩,
    fun stack => ⟨(.after (.arr (xs.map val)), stack), ?_, rfl⟩⟩
  cases xs with
  | nil => rfl
  | cons x xs =>
    obtain ⟨hx, hxs⟩ := List.forall_mem_cons.1 h
    obtain ⟨s, hrun, hs⟩ := hx.reads (.arr [] :: stack)
    obtain ⟨c, cs, htext, hspace, hend⟩ := hx.head
    have hfirst : run fmt (.firstElement, stack) (txt x) =
        run fmt (.value, .arr [] :: stack) (txt x) := by
      rw [htext, run_cons, run_cons]
      simp [read, hspace, hend]
    show run fmt (.firstElement, stack) (txt x ++ joinRest (xs.map txt) ++ [unit ']']) = _
    rw [List.append_assoc, run_append, hfirst, hrun, Option.bind_some, run_elements hxs hs]
    rfl

/-- A new key comes last. -/
lemma setProperty_new {fields : List (Units × JsonValue)} {key : Units} (v : JsonValue)
    (h : key ∉ fields.map Prod.fst) : setProperty fields key v = fields ++ [(key, v)] :=
  if_neg h

/-- The text is read as a member of an object where one is expected. -/
structure ReadsMember (fmt : NumberFormat) (key : Units) (v : JsonValue) (cs : Units) : Prop where
  first : ∀ stack, run fmt (.firstMember, stack) cs = run fmt (.member [], stack) cs
  reads : ∀ done stack, ∃ s, run fmt (.member done, stack) cs = some s ∧
    settle fmt s = some (v, .obj done key :: stack)

/-- The rest of an object, from its first comma on. -/
lemma run_members {fs : List (Units × α)} {member : Units × α → Units}
    (h : ∀ f ∈ fs, ReadsMember fmt f.1 (val f.2) (member f)) {s : State}
    {done : List (Units × JsonValue)} {key : Units} {v : JsonValue}
    (hs : settle fmt s = some (v, .obj done key :: stack))
    (hnodup : (done.map Prod.fst ++ key :: fs.map Prod.fst).Nodup) :
    run fmt s (joinRest (fs.map member) ++ [unit '\x7d']) =
      some (.after (.obj (done ++ (key, v) :: fs.map fun f => (f.1, val f.2))), stack) := by
  -- induction on the members that are left; the closing brace comes behind the last
  induction fs generalizing s done key v with
  | nil =>
    have hset := setProperty_new v fun hmem =>
      (List.nodup_append.1 hnodup).2.2 key hmem key (List.mem_cons_self ..) rfl
    have hclose : run fmt s [unit '\x7d'] =
        (read fmt s (unit '\x7d')).bind fun s => run fmt s [] := rfl
    have hafter : readAfter v (.obj done key :: stack) (unit '\x7d') =
        some (.after (.obj (setProperty done key v)), stack) := rfl
    refine hclose.trans ?_
    rw [read_settled hs (by decide), hafter, hset]
    rfl
  | cons f fs ih =>
    obtain ⟨hf, hfs⟩ := List.forall_mem_cons.1 h
    have hset := setProperty_new v fun hmem =>
      (List.nodup_append.1 hnodup).2.2 key hmem key (List.mem_cons_self ..) rfl
    obtain ⟨s', hrun, hs'⟩ := hf.reads (done ++ [(key, v)]) stack
    have hcomma : readAfter v (.obj done key :: stack) (unit ',') =
        some (.member (setProperty done key v), stack) := rfl
    rw [List.map_cons, joinRest, List.cons_append, run_cons, read_settled hs (by decide), hcomma,
      Option.bind_some, hset, List.append_assoc, run_append, hrun, Option.bind_some,
      ih hfs hs' (by simpa using hnodup), List.append_assoc]
    rfl

/-- The members are read one after the other. -/
lemma reads_members {fs : List (Units × α)} {member : Units × α → Units}
    (h : ∀ f ∈ fs, ReadsMember fmt f.1 (val f.2) (member f)) (hnodup : (fs.map Prod.fst).Nodup) :
    Reads fmt (.obj (fs.map fun f => (f.1, val f.2)))
      (unit '\x7b' :: (join (fs.map member) ++ [unit '\x7d'])) := by
  refine ⟨⟨_, _, rfl, by decide, by decide⟩,
    fun stack => ⟨(.after (.obj (fs.map fun f => (f.1, val f.2))), stack), ?_, rfl⟩⟩
  cases fs with
  | nil => rfl
  | cons f fs =>
    obtain ⟨hf, hfs⟩ := List.forall_mem_cons.1 h
    obtain ⟨s, hrun, hs⟩ := hf.reads [] stack
    show run fmt (.firstMember, stack) (member f ++ joinRest (fs.map member) ++ [unit '\x7d']) = _
    rw [List.append_assoc, run_append, hf.first, hrun, Option.bind_some, run_members hfs hs hnodup]
    rfl

/-- A member is read if its value is. -/
lemma readsMember_serialize {f : Units × α} (h : Reads fmt (val f.2) (txt f.2)) :
    ReadsMember fmt f.1 (val f.2) (serializeMember (f.1, txt f.2)) := by
  constructor
  · intro stack
    rfl
  · intro done stack
    obtain ⟨s, hrun, hs⟩ := h.reads (.obj done f.1 :: stack)
    refine ⟨s, ?_, hs⟩
    show run fmt (.text (.key done) [] .none, stack)
      (f.1.flatMap serializeUnit ++ [unit '"'] ++ unit ':' :: txt f.2) = _
    rw [run_append, run_serializeString, Option.bind_some]
    exact hrun

/-- An object is read if its members are and no key comes twice. -/
lemma reads_obj {fs : List (Units × α)} (h : ∀ f ∈ fs, Reads fmt (val f.2) (txt f.2))
    (hnodup : (fs.map Prod.fst).Nodup) :
    Reads fmt (.obj (fs.map fun f => (f.1, val f.2)))
      (unit '\x7b' :: (join (fs.map fun f => serializeMember (f.1, txt f.2)) ++ [unit '\x7d'])) :=
  reads_members (fun f hf => readsMember_serialize (h f hf)) hnodup

end parts

/-! ## Canonical text -/

/-- The canonical text of a value is a text of its normal form. -/
lemma reads_canonical (fmt : NumberFormat) {v : JsonValue} (hv : v.Distinct) :
    Reads fmt v.normal (serializeCanonical fmt v) := by
  induction v with
  | null => exact reads_word .null
  | bool b =>
    cases b with
    | true => exact reads_word .true
    | false => exact reads_word .false
  | num n =>
    rw [JsonValue.normal, serializeCanonical, serializeNumber_unsigned]
    exact reads_num n.unsigned_ne_negZero
  | str s => exact reads_str s
  | arr vs ih =>
    rw [JsonValue.distinct_arr] at hv
    rw [JsonValue.normal_arr, serializeCanonical_arr]
    exact reads_arr fun v hmem => ih v hmem (hv v hmem)
  | obj fields ih =>
    obtain ⟨hnodup, hfields⟩ := JsonValue.distinct_obj.1 hv
    rw [JsonValue.normal_obj, serializeCanonical_obj]
    refine reads_obj (fun f hf => ?_) ((byKey_keys_perm fields).nodup_iff.2 hnodup)
    exact ih f (mem_byKey.1 hf) (hfields f (mem_byKey.1 hf))

/-- The canonical text is read as the normal form of the value. -/
lemma parse_canonical (fmt : NumberFormat) {v : JsonValue} (hv : v.Distinct) :
    parse fmt (canonicalJsonString fmt v) = some v.normal := by
  obtain ⟨s, hrun, hs⟩ := (reads_canonical fmt hv).reads []
  unfold parse canonicalJsonString
  rw [hrun, Option.bind_some, hs]

/-- Two values have one canonical text if and only if they are the same up to the order of keys and
the sign of zeros, and the text of a value is read as one that is the same as it. -/
theorem canonical_eq_iff_same (fmt : NumberFormat) {v w : JsonValue} (hv : v.Distinct)
    (hw : w.Distinct) :
    (canonicalJsonString fmt v = canonicalJsonString fmt w ↔ v.Same w) ∧
      ∃ u, parse fmt (canonicalJsonString fmt v) = some u ∧ u.Same v := by
  refine ⟨⟨fun htext => ?_, fun hsame => ?_⟩, v.normal, parse_canonical fmt hv, ?_⟩
  · have hread := parse_canonical fmt hv
    rw [htext, parse_canonical fmt hw] at hread
    exact (JsonValue.same_iff_normal hv hw).2 (Option.some.inj hread).symm
  · unfold canonicalJsonString
    rw [← serializeCanonical_normal, (JsonValue.same_iff_normal hv hw).1 hsame,
      serializeCanonical_normal]
  · exact (JsonValue.same_iff_normal hv.normal hv).2 (JsonValue.normal_normal v)

end reading

/-- An object with a negative zero and a lone surrogate. -/
def oddPayload : JsonValue :=
  .obj [(units "n", .num .negZero), (units "a", .arr [.str [0xd800, 0x22]])]

/-- The same with its keys in the other order and the other zero. -/
def oddPayload' : JsonValue :=
  .obj [(units "a", .arr [.str [0xd800, 0x22]]), (units "n", .num .zero)]

/-- Two payloads with odd keys and numbers. -/
theorem odd_payloads_same :
    (canonicalJsonString bitsFormat oddPayload = canonicalJsonString bitsFormat oddPayload' ↔
        oddPayload.Same oddPayload') ∧
      ∃ u, parse bitsFormat (canonicalJsonString bitsFormat oddPayload) = some u ∧
        u.Same oddPayload := by
  refine canonical_eq_iff_same bitsFormat ?_ ?_
  · exact JsonValue.distinct_obj.2 ⟨by decide, by simp [JsonValue.Distinct, JsonValue.DistinctAll]⟩
  · exact JsonValue.distinct_obj.2 ⟨by decide, by simp [JsonValue.Distinct, JsonValue.DistinctAll]⟩

example : canonicalJsonString bitsFormat oddPayload =
    units "\x7b\"a\":[\"\\ud800\\\"\"],\"n\":0\x7d" := by
  decide +kernel

end NexusClaw.AuditChain
