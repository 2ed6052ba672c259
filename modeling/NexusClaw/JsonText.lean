import NexusClaw.Json

/-!
# JSON text

`JSON.stringify` and `JSON.parse`. Texts are lists of characters. The parser reads one character at
a time: its state is a mode and the stack of the arrays and objects that are still open, so that
reading two texts one after the other is reading the second from the state the first ends in
(`run_append`). How a number is written is a parameter, a `NumberFormat` with the law that a number
is read back as it was written. `parse_text` is the round trip, and `parse_torn` and `parse_ended`
are the two ways in which a text is not read.
-/

namespace NexusClaw.Json

/-! ## Writing -/

/-- The two digits of a number below 256 in base 16. -/
def hexPair (n : Nat) : List Char :=
  [Nat.digitChar (n / 16), Nat.digitChar (n % 16)]

/-- A character of a string as `JSON.stringify` writes it. -/
def quoteChar (c : Char) : List Char :=
  if c = '"' then ['\\', '"']
  else if c = '\\' then ['\\', '\\']
  else if c = '\x08' then ['\\', 'b']
  else if c = '\x0c' then ['\\', 'f']
  else if c = '\n' then ['\\', 'n']
  else if c = '\r' then ['\\', 'r']
  else if c = '\t' then ['\\', 't']
  else if c.toNat < 32 then ['\\', 'u', '0', '0'] ++ hexPair c.toNat
  else [c]

/-- A string between quotation marks. -/
def quote (s : String) : List Char :=
  '"' :: (s.toList.flatMap quoteChar ++ ['"'])

/-- The characters a number is written with. -/
def isNumberChar (c : Char) : Bool :=
  c.isDigit || c = '-' || c = '+' || c = '.' || c = 'e' || c = 'E'

/-- The number texts of the language: `format` writes a number that a finite double denotes, `read`
gives the value of a text of the number grammar. -/
structure NumberFormat where
  finite : Rat → Prop
  format : Rat → List Char
  read : List Char → Option Rat
  read_format : ∀ {n}, finite n → read (format n) = some n
  format_head : ∀ {n}, finite n → ∃ c cs, format n = c :: cs ∧ (c.isDigit = true ∨ c = '-')
  format_chars : ∀ {n}, finite n → ∀ c ∈ format n, isNumberChar c = true

/-- The words of the language that are values. -/
inductive Word where
  | null
  | true
  | false

def Word.chars : Word → List Char
  | .null => ['n', 'u', 'l', 'l']
  | .true => ['t', 'r', 'u', 'e']
  | .false => ['f', 'a', 'l', 's', 'e']

def Word.value : Word → Json
  | .null => .null
  | .true => .bool Bool.true
  | .false => .bool Bool.false

mutual
/-- `JSON.stringify` -/
def text (fmt : NumberFormat) : Json → List Char
  | .null => Word.null.chars
  | .bool true => Word.true.chars
  | .bool false => Word.false.chars
  | .num n => fmt.format n
  | .str s => quote s
  | .arr [] => ['[', ']']
  | .arr (v :: vs) => '[' :: (text fmt v ++ textElements fmt vs)
  | .obj [] => ['\x7b', '\x7d']
  | .obj (f :: fs) => '\x7b' :: (textMember fmt f ++ textMembers fmt fs)

/-- The elements of an array after the first, and its end. -/
def textElements (fmt : NumberFormat) : List Json → List Char
  | [] => [']']
  | v :: vs => ',' :: (text fmt v ++ textElements fmt vs)

def textMember (fmt : NumberFormat) : String × Json → List Char
  | (name, v) => quote name ++ ':' :: text fmt v

/-- The members of an object after the first, and its end. -/
def textMembers (fmt : NumberFormat) : List (String × Json) → List Char
  | [] => ['\x7d']
  | f :: fs => ',' :: (textMember fmt f ++ textMembers fmt fs)
end

mutual
/-- A value of the language: its numbers are finite and no object has a property twice. -/
def WellFormed (fmt : NumberFormat) : Json → Prop
  | .null => True
  | .bool _ => True
  | .num n => fmt.finite n
  | .str _ => True
  | .arr xs => WellFormedAll fmt xs
  | .obj fields => (fields.map Prod.fst).Nodup ∧ WellFormedFields fmt fields

def WellFormedAll (fmt : NumberFormat) : List Json → Prop
  | [] => True
  | v :: vs => WellFormed fmt v ∧ WellFormedAll fmt vs

def WellFormedFields (fmt : NumberFormat) : List (String × Json) → Prop
  | [] => True
  | f :: fs => WellFormedField fmt f ∧ WellFormedFields fmt fs

def WellFormedField (fmt : NumberFormat) : String × Json → Prop
  | (_, v) => WellFormed fmt v
end

/-! ## Reading -/

/-- An array or an object that is still open; in an object the key whose value is being read. -/
inductive Frame where
  | arr (done : List Json)
  | obj (done : List (String × Json)) (key : String)

/-- What a string is read for: a value, or the key of the next member. -/
inductive Goal where
  | value
  | key (done : List (String × Json))

/-- Where the reader is inside a string. -/
inductive Escape where
  | none
  | backslash
  | hex (digits : List Nat)

/-- A string that is being read: its characters so far and the first half of a surrogate pair, while
the second may still follow. -/
structure Partial where
  chars : List Char := []
  high : Option Nat := none
  escape : Escape := .none

inductive Mode where
  | value
  | firstElement
  | firstMember
  | member (done : List (String × Json))
  | colon (done : List (String × Json)) (key : String)
  | text (goal : Goal) (read : Partial)
  | number (chars : List Char)
  | word (w : Word) (count : Nat)
  | after (v : Json)

abbrev State := Mode × List Frame

def isSpace (c : Char) : Bool :=
  c = ' ' || c = '\t' || c = '\n' || c = '\r'

/-- The value of a digit in base 16. -/
def hexDigit (c : Char) : Option Nat :=
  if c.isDigit then some (c.toNat - '0'.toNat)
  else if 'a' ≤ c ∧ c ≤ 'f' then some (c.toNat - 'a'.toNat + 10)
  else if 'A' ≤ c ∧ c ≤ 'F' then some (c.toNat - 'A'.toNat + 10)
  else none

/-- The property `name` gets a value: an existing property keeps its place. -/
def setProperty (fields : List (String × Json)) (name : String) (v : Json) :
    List (String × Json) :=
  if name ∈ fields.map Prod.fst then fields.map fun f => if f.1 = name then (name, v) else f
  else fields ++ [(name, v)]

/-- The characters once no second half of a surrogate pair follows; a lone half, which no `String`
holds, becomes the replacement character. -/
def Partial.flush (read : Partial) : List Char :=
  match read.high with
  | none => read.chars
  | some _ => read.chars ++ ['\uFFFD']

def Partial.push (read : Partial) (c : Char) : Partial where
  chars := read.flush ++ [c]

/-- The code unit of a `\u` escape. -/
def Partial.unit (read : Partial) (n : Nat) : Partial :=
  if 0xD800 ≤ n ∧ n < 0xDC00 then { chars := read.flush, high := some n }
  else if 0xDC00 ≤ n ∧ n < 0xE000 then
    match read.high with
    | none => read.push '\uFFFD'
    | some h =>
      { chars := read.chars ++ [Char.ofNat (0x10000 + (h - 0xD800) * 0x400 + (n - 0xDC00))] }
  else read.push (Char.ofNat n)

/-- The character after a backslash. -/
def Partial.escaped (read : Partial) (c : Char) : Option Partial :=
  if c = '"' ∨ c = '\\' ∨ c = '/' then some (read.push c)
  else if c = 'b' then some (read.push '\x08')
  else if c = 'f' then some (read.push '\x0c')
  else if c = 'n' then some (read.push '\n')
  else if c = 'r' then some (read.push '\r')
  else if c = 't' then some (read.push '\t')
  else if c = 'u' then some { read with escape := .hex [] }
  else none

/-- A digit of a `\u` escape, the fourth of which completes the code unit. -/
def Partial.digit (read : Partial) (digits : List Nat) (c : Char) : Option Partial :=
  (hexDigit c).map fun d =>
    match digits with
    | [d₁, d₂, d₃] => read.unit (((d₁ * 16 + d₂) * 16 + d₃) * 16 + d)
    | _ => { read with escape := .hex (digits ++ [d]) }

/-- The mode after a string. -/
def Goal.close (goal : Goal) (chars : List Char) : Mode :=
  match goal with
  | .value => .after (.str (String.ofList chars))
  | .key done => .colon done (String.ofList chars)

/-- The next character inside a string. -/
def readText (goal : Goal) (read : Partial) (stack : List Frame) (c : Char) : Option State :=
  match read.escape with
  | .none =>
    if c = '"' then some (goal.close read.flush, stack)
    else if c = '\\' then some (.text goal { read with escape := .backslash }, stack)
    else if c.toNat < 32 then none
    else some (.text goal (read.push c), stack)
  | .backslash => (read.escaped c).map fun read => (.text goal read, stack)
  | .hex digits => (read.digit digits c).map fun read => (.text goal read, stack)

/-- The first character of a value. -/
def readValue (stack : List Frame) (c : Char) : Option State :=
  if c = '"' then some (.text .value {}, stack)
  else if c = '[' then some (.firstElement, stack)
  else if c = '\x7b' then some (.firstMember, stack)
  else if c = 'n' then some (.word .null 1, stack)
  else if c = 't' then some (.word .true 1, stack)
  else if c = 'f' then some (.word .false 1, stack)
  else if c.isDigit ∨ c = '-' then some (.number [c], stack)
  else none

/-- The next character after a value. -/
def readAfter (v : Json) (stack : List Frame) (c : Char) : Option State :=
  if isSpace c then some (.after v, stack)
  else
    match stack with
    | [] => none
    | .arr done :: stack =>
      if c = ',' then some (.value, .arr (done ++ [v]) :: stack)
      else if c = ']' then some (.after (.arr (done ++ [v])), stack)
      else none
    | .obj done key :: stack =>
      if c = ',' then some (.member (setProperty done key v), stack)
      else if c = '\x7d' then some (.after (.obj (setProperty done key v)), stack)
      else none

/-- The next character of a text. -/
def read (fmt : NumberFormat) (s : State) (c : Char) : Option State :=
  match s with
  | (.value, stack) => if isSpace c then some (.value, stack) else readValue stack c
  | (.firstElement, stack) =>
    if isSpace c then some (.firstElement, stack)
    else if c = ']' then some (.after (.arr []), stack)
    else readValue (.arr [] :: stack) c
  | (.firstMember, stack) =>
    if isSpace c then some (.firstMember, stack)
    else if c = '\x7d' then some (.after (.obj []), stack)
    else if c = '"' then some (.text (.key []) {}, stack)
    else none
  | (.member done, stack) =>
    if isSpace c then some (.member done, stack)
    else if c = '"' then some (.text (.key done) {}, stack)
    else none
  | (.colon done key, stack) =>
    if isSpace c then some (.colon done key, stack)
    else if c = ':' then some (.value, .obj done key :: stack)
    else none
  | (.text goal read, stack) => readText goal read stack c
  | (.number chars, stack) =>
    if isNumberChar c then some (.number (chars ++ [c]), stack)
    else (fmt.read chars).bind fun n => readAfter (.num n) stack c
  | (.word w count, stack) =>
    if w.chars[count]? = some c then
      some (if count + 1 = w.chars.length then .after w.value else .word w (count + 1), stack)
    else none
  | (.after v, stack) => readAfter v stack c

/-- The characters of a text, one after the other. -/
def run (fmt : NumberFormat) (s : State) (cs : List Char) : Option State :=
  cs.foldlM (read fmt) s

/-- The value that a state has read, and the arrays and objects around it. -/
def settle (fmt : NumberFormat) : State → Option (Json × List Frame)
  | (.after v, stack) => some (v, stack)
  | (.number chars, stack) => (fmt.read chars).map fun n => (.num n, stack)
  | _ => none

/-- The state before a text. -/
def start : State := (.value, [])

/-- `JSON.parse`; no value when it throws. -/
def parse (fmt : NumberFormat) (cs : List Char) : Option Json :=
  match (run fmt start cs).bind (settle fmt) with
  | some (v, []) => some v
  | _ => none

/-! ## The round trip -/

section roundTrip
variable {fmt : NumberFormat} {stack : List Frame}

/-- The reader at the end. -/
@[simp] lemma run_nil (s : State) : run fmt s [] = some s := rfl

/-- The reader reads one character after the other. -/
@[simp] lemma run_cons (s : State) (c : Char) (cs : List Char) :
    run fmt s (c :: cs) = (read fmt s c).bind fun s => run fmt s cs := rfl

/-- The reader reads two texts. -/
lemma run_append (s : State) (cs ds : List Char) :
    run fmt s (cs ++ ds) = (run fmt s cs).bind fun s => run fmt s ds :=
  List.foldlM_append

/-- A hexadecimal digit is read back. -/
lemma hexDigit_digitChar {d : Nat} (h : d < 16) : hexDigit (Nat.digitChar d) = some d := by
  have hall : ∀ d : Fin 16, hexDigit (Nat.digitChar d) = some d.val := by decide
  exact hall ⟨d, h⟩

/-- A character is read as it was written. -/
lemma run_quoteChar (goal : Goal) (chars : List Char) (c : Char) :
    run fmt (.text goal { chars }, stack) (quoteChar c) =
      some (.text goal { chars := chars ++ [c] }, stack) := by
  unfold quoteChar
  split_ifs with h1 h2 h3 h4 h5 h6 h7 h8
  all_goals try subst c; rfl
  · -- A control character without an escape of its own.
    have hhigh := hexDigit_digitChar (d := c.toNat / 16) (by omega)
    have hlow := hexDigit_digitChar (d := c.toNat % 16) (by omega)
    have hsum : c.toNat / 16 * 16 + c.toNat % 16 = c.toNat := by omega
    have hopen : run fmt (.text goal { chars }, stack) ['\\', 'u', '0', '0'] =
        some (.text goal { chars, escape := .hex [0, 0] }, stack) := rfl
    have hunit (e : Escape) : Partial.unit { chars, escape := e } c.toNat =
        { chars := chars ++ [c] } := by
      unfold Partial.unit
      rw [if_neg (by omega), if_neg (by omega), Char.ofNat_toNat]
      rfl
    rw [run_append, hopen]
    simp [hexPair, read, readText, Partial.digit, hhigh, hlow, hsum, hunit]
  · simp [read, readText, h1, h2, h8, Partial.push, Partial.flush]

/-- A quoted text is read back. -/
lemma run_quoteChars (goal : Goal) (chars cs : List Char) :
    run fmt (.text goal { chars }, stack) (cs.flatMap quoteChar) =
      some (.text goal { chars := chars ++ cs }, stack) := by
  induction cs generalizing chars with
  | nil => simp
  | cons c cs ih =>
    have happ : chars ++ c :: cs = chars ++ [c] ++ cs := by simp
    rw [List.flatMap_cons, run_append, run_quoteChar, Option.bind_some, ih, happ]

/-- A string is read as it was written, once its first quotation mark is. -/
lemma run_quote (goal : Goal) (s : String) :
    run fmt (.text goal {}, stack) (s.toList.flatMap quoteChar ++ ['"']) =
      some (goal.close s.toList, stack) := by
  rw [run_append, run_quoteChars, List.nil_append]
  rfl

/-- A character that goes on with no number follows a value that is read. -/
lemma read_settled {s : State} {v : Json} (h : settle fmt s = some (v, stack)) {c : Char}
    (hc : isNumberChar c = false) : read fmt s c = readAfter v stack c := by
  obtain ⟨mode, st⟩ := s
  cases mode with
  | after u =>
    obtain ⟨rfl, rfl⟩ := Prod.mk.inj (Option.some.inj h)
    rfl
  | number chars =>
    cases hn : fmt.read chars with
    | none =>
      rw [settle, hn] at h
      cases h
    | some n =>
      rw [settle, hn] at h
      obtain ⟨rfl, rfl⟩ := Prod.mk.inj (Option.some.inj h)
      simp [read, hc, hn]
  | _ => cases h

/-- A text of a value, read where a value is expected. -/
def Reads (fmt : NumberFormat) (v : Json) (cs : List Char) : Prop :=
  ∀ stack, ∃ s, run fmt (.value, stack) cs = some s ∧ settle fmt s = some (v, stack)

/-- A digit or a minus is none of the others. -/
lemma digit_ne {c d : Char} (h : c.isDigit = true ∨ c = '-')
    (hd : d.isDigit = false ∧ d ≠ '-') : c ≠ d := by
  rintro rfl
  obtain h | h := h
  · cases hd.1.symm.trans h
  · exact hd.2 h

/-- A digit is no space. -/
lemma isSpace_digit {c : Char} (h : c.isDigit = true ∨ c = '-') : isSpace c = false := by
  have hspace : c ≠ ' ' := digit_ne h (by decide)
  have htab : c ≠ '\t' := digit_ne h (by decide)
  have hline : c ≠ '\n' := digit_ne h (by decide)
  have hreturn : c ≠ '\r' := digit_ne h (by decide)
  simp [isSpace, hspace, htab, hline, hreturn]

/-- A number is opened by its first character. -/
lemma read_digit {c : Char} (h : c.isDigit = true ∨ c = '-') :
    read fmt (.value, stack) c = some (.number [c], stack) := by
  have hquote : c ≠ '"' := digit_ne h (by decide)
  have harr : c ≠ '[' := digit_ne h (by decide)
  have hobj : c ≠ '\x7b' := digit_ne h (by decide)
  have hnull : c ≠ 'n' := digit_ne h (by decide)
  have htrue : c ≠ 't' := digit_ne h (by decide)
  have hfalse : c ≠ 'f' := digit_ne h (by decide)
  simp [read, readValue, isSpace_digit h, hquote, harr, hobj, hnull, htrue, hfalse, h]

/-- The first character of a value's text is neither a space nor the end of an array. -/
lemma text_head {v : Json} (hv : v.WellFormed fmt) :
    ∃ c cs, text fmt v = c :: cs ∧ isSpace c = false ∧ c ≠ ']' := by
  cases v with
  | null => exact ⟨_, _, rfl, rfl, by decide⟩
  | bool b =>
    cases b with
    | true => exact ⟨_, _, rfl, rfl, by decide⟩
    | false => exact ⟨_, _, rfl, rfl, by decide⟩
  | num n =>
    obtain ⟨c, cs, hformat, hc⟩ := fmt.format_head hv
    exact ⟨c, cs, hformat, isSpace_digit hc, digit_ne hc (by decide)⟩
  | str s => exact ⟨_, _, rfl, rfl, by decide⟩
  | arr xs =>
    cases xs with
    | nil => exact ⟨_, _, rfl, rfl, by decide⟩
    | cons v vs => exact ⟨_, _, rfl, rfl, by decide⟩
  | obj fields =>
    cases fields with
    | nil => exact ⟨_, _, rfl, rfl, by decide⟩
    | cons f fs => exact ⟨_, _, rfl, rfl, by decide⟩

/-- The first element of an array is read like a value. -/
lemma run_firstElement {v : Json} (hv : v.WellFormed fmt) :
    run fmt (.firstElement, stack) (text fmt v) =
      run fmt (.value, .arr [] :: stack) (text fmt v) := by
  obtain ⟨c, cs, htext, hspace, hclose⟩ := text_head hv
  rw [htext, run_cons, run_cons]
  simp [read, hspace, hclose]

/-- The first member of an object is read like a later one. -/
lemma run_firstMember (f : String × Json) :
    run fmt (.firstMember, stack) (textMember fmt f) =
      run fmt (.member [], stack) (textMember fmt f) := by
  obtain ⟨name, v⟩ := f
  rfl

/-- The characters of a number are collected. -/
lemma run_number {chars cs : List Char} (h : ∀ c ∈ cs, isNumberChar c = true) :
    run fmt (.number chars, stack) cs = some (.number (chars ++ cs), stack) := by
  induction cs generalizing chars with
  | nil => simp
  | cons c cs ih =>
    have hc := h c (List.mem_cons_self ..)
    have hstep : read fmt (.number chars, stack) c = some (.number (chars ++ [c]), stack) := by
      simp [read, hc]
    rw [run_cons, hstep, Option.bind_some, ih fun d hd => h d (List.mem_cons_of_mem _ hd)]
    simp

/-- A finite number is read. -/
lemma reads_num {n : Rat} (hn : fmt.finite n) : Reads fmt (.num n) (fmt.format n) := by
  intro stack
  obtain ⟨c, cs, hformat, hc⟩ := fmt.format_head hn
  have hchars := fmt.format_chars hn
  rw [hformat] at hchars ⊢
  refine ⟨(.number (c :: cs), stack), ?_, ?_⟩
  · rw [run_cons, read_digit hc, Option.bind_some,
      run_number fun d hd => hchars d (List.mem_cons_of_mem _ hd)]
    rfl
  · rw [settle, ← hformat, fmt.read_format hn]
    rfl

/-- A new name comes last. -/
lemma setProperty_new {fields : List (String × Json)} {name : String} (v : Json)
    (h : name ∉ fields.map Prod.fst) : setProperty fields name v = fields ++ [(name, v)] :=
  if_neg h

mutual
/-- A well-formed value is read, by induction on the value. -/
theorem reads_text (v : Json) (hv : v.WellFormed fmt) : Reads fmt v (text fmt v) := by
  intro stack
  match v, hv with
  | .null, _ => exact ⟨_, rfl, rfl⟩
  | .bool true, _ => exact ⟨_, rfl, rfl⟩
  | .bool false, _ => exact ⟨_, rfl, rfl⟩
  | .num n, hv => exact reads_num hv stack
  | .str s, _ =>
    refine ⟨(.after (.str s), stack), ?_, rfl⟩
    show run fmt (.text .value {}, stack) (s.toList.flatMap quoteChar ++ ['"']) = _
    rw [run_quote, Goal.close, String.ofList_toList]
  | .arr [], _ => exact ⟨_, rfl, rfl⟩
  | .arr (v :: vs), ⟨hv, hvs⟩ =>
    obtain ⟨s, hrun, hs⟩ := reads_text v hv (.arr [] :: stack)
    have hrest := reads_elements vs hvs hs
    refine ⟨(.after (.arr (v :: vs)), stack), ?_, rfl⟩
    show run fmt (.firstElement, stack) (text fmt v ++ textElements fmt vs) = _
    rw [run_append, run_firstElement hv, hrun, Option.bind_some, hrest, List.nil_append]
  | .obj [], _ => exact ⟨_, rfl, rfl⟩
  | .obj (f :: fs), ⟨hnodup, hf, hfs⟩ =>
    obtain ⟨s, hrun, hs⟩ := reads_member f hf [] stack
    have hrest := reads_members fs hfs hs hnodup
    refine ⟨(.after (.obj (f :: fs)), stack), ?_, rfl⟩
    show run fmt (.firstMember, stack) (textMember fmt f ++ textMembers fmt fs) = _
    rw [run_append, run_firstMember, hrun, Option.bind_some, hrest, List.nil_append]
termination_by structural v

/-- So are the elements of an array. -/
theorem reads_elements (vs : List Json) (hvs : WellFormedAll fmt vs) {s : State}
    {done : List Json} {v : Json} {stack : List Frame}
    (hs : settle fmt s = some (v, .arr done :: stack)) :
    run fmt s (textElements fmt vs) = some (.after (.arr (done ++ v :: vs)), stack) := by
  match vs, hvs with
  | [], _ =>
    rw [textElements, run_cons, read_settled hs rfl]
    rfl
  | w :: ws, ⟨hw, hws⟩ =>
    obtain ⟨s', hrun, hs'⟩ := reads_text w hw (.arr (done ++ [v]) :: stack)
    have hrest := reads_elements ws hws hs'
    have hcomma : readAfter v (.arr done :: stack) ',' =
        some (.value, .arr (done ++ [v]) :: stack) := rfl
    rw [textElements, run_cons, read_settled hs rfl, hcomma, Option.bind_some, run_append, hrun,
      Option.bind_some, hrest, List.append_assoc]
    rfl
termination_by structural vs

/-- So are the members of an object. -/
theorem reads_members (fs : List (String × Json)) (hfs : WellFormedFields fmt fs) {s : State}
    {done : List (String × Json)} {key : String} {v : Json} {stack : List Frame}
    (hs : settle fmt s = some (v, .obj done key :: stack))
    (hnodup : (done.map Prod.fst ++ key :: fs.map Prod.fst).Nodup) :
    run fmt s (textMembers fmt fs) = some (.after (.obj (done ++ (key, v) :: fs)), stack) := by
  have hnew : key ∉ done.map Prod.fst := by
    intro hmem
    exact (List.nodup_append.mp hnodup).2.2 key hmem key (List.mem_cons_self ..) rfl
  have hset := setProperty_new v hnew
  match fs, hfs with
  | [], _ =>
    have hclose : readAfter v (.obj done key :: stack) '\x7d' =
        some (.after (.obj (setProperty done key v)), stack) := rfl
    rw [textMembers, run_cons, read_settled hs rfl, hclose, hset]
    rfl
  | f :: fs, ⟨hf, hfs⟩ =>
    obtain ⟨s', hrun, hs'⟩ := reads_member f hf (done ++ [(key, v)]) stack
    have hrest := reads_members fs hfs hs' (by simpa using hnodup)
    have hcomma : readAfter v (.obj done key :: stack) ',' =
        some (.member (setProperty done key v), stack) := rfl
    rw [textMembers, run_cons, read_settled hs rfl, hcomma, Option.bind_some, hset, run_append,
      hrun, Option.bind_some, hrest, List.append_assoc]
    rfl
termination_by structural fs

/-- So is a member. -/
theorem reads_member (f : String × Json) (hf : WellFormedField fmt f)
    (done : List (String × Json)) (stack : List Frame) :
    ∃ s, run fmt (.member done, stack) (textMember fmt f) = some s ∧
      settle fmt s = some (f.2, .obj done f.1 :: stack) := by
  match f, hf with
  | (name, v), hv =>
    obtain ⟨s, hrun, hs⟩ := reads_text v hv (.obj done name :: stack)
    refine ⟨s, ?_, hs⟩
    show run fmt (.text (.key done) {}, stack)
      (name.toList.flatMap quoteChar ++ ['"'] ++ ':' :: text fmt v) = _
    rw [run_append, run_quote, Option.bind_some, Goal.close, String.ofList_toList]
    exact hrun
termination_by structural f
end

/-- A value is read back as it was written. -/
theorem parse_text {v : Json} (hv : v.WellFormed fmt) : parse fmt (text fmt v) = some v := by
  obtain ⟨s, hrun, hs⟩ := reads_text v hv []
  simp only [parse, start, hrun, Option.bind_some, hs]

end roundTrip

/-! ## Texts that are not read -/

section refused
variable {fmt : NumberFormat}

/-- An underscore follows no value. -/
lemma readAfter_underscore (v : Json) (stack : List Frame) : readAfter v stack '_' = none := by
  cases stack with
  | nil => rfl
  | cons frame stack =>
    cases frame with
    | arr done => rfl
    | obj done key => rfl

/-- No state goes on with a line break and an underscore: a string holds no line break, and outside
of strings there is no underscore. -/
lemma read_break (s : State) : run fmt s ['\n', '_'] = none := by
  obtain ⟨mode, stack⟩ := s
  -- one case for each mode; only inside of a string is there something to look at
  cases mode with
  | value => rfl
  | firstElement => rfl
  | firstMember => rfl
  | member done => rfl
  | colon done key => rfl
  | text goal read =>
    obtain ⟨chars, high, escape⟩ := read
    cases escape with
    | none => rfl
    | backslash => rfl
    | hex digits => rfl
  | number chars =>
    show ((fmt.read chars).bind fun n => some (Mode.after (.num n), stack)).bind _ = none
    cases fmt.read chars with
    | none => rfl
    | some n => exact congrArg (Option.bind · _) (readAfter_underscore (.num n) stack)
  | word w count =>
    have hbreak : w.chars[count]? ≠ some '\n' := by
      intro h
      have hmem := List.mem_of_getElem? h
      cases w with
      | null => exact absurd hmem (by decide)
      | true => exact absurd hmem (by decide)
      | false => exact absurd hmem (by decide)
    rw [run_cons, read, if_neg hbreak]
    rfl
  | after v => exact congrArg (Option.bind · _) (readAfter_underscore v stack)

/-- A text with a line break before an underscore is not read. -/
theorem parse_torn (cs ds : List Char) : parse fmt (cs ++ '\n' :: '_' :: ds) = none := by
  have hnone : run fmt start (cs ++ '\n' :: '_' :: ds) = none := by
    have happ : '\n' :: '_' :: ds = ['\n', '_'] ++ ds := rfl
    rw [happ, run_append]
    cases run fmt start cs with
    | none => rfl
    | some s => rw [Option.bind_some, run_append, read_break, Option.bind_none]
  rw [parse, hnone]
  rfl

/-- No text that is read goes on with an underscore. -/
theorem parse_ended {cs : List Char} {v : Json} (h : parse fmt cs = some v) (ds : List Char) :
    run fmt start (cs ++ '_' :: ds) = none := by
  rw [run_append]
  cases hrun : run fmt start cs with
  | none => rfl
  | some s =>
    rw [parse, hrun] at h
    cases hs : settle fmt s with
    | none =>
      rw [Option.bind_some, hs] at h
      cases h
    | some u =>
      rw [Option.bind_some, run_cons, read_settled hs rfl, readAfter_underscore]
      rfl

end refused

end NexusClaw.Json
