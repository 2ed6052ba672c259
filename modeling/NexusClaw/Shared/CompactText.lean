import NexusClaw.AuditChain.Preview
import NexusClaw.MetadataRuntime.StableText

/-!
# Compact text

`JSON.stringify` without an indent. The text is read back as the value that it is written for
(`parse_stringify`), it has no control character in it (`stringify_printable`), and a measure of texts
that adds up in front of an ASCII character, as the number of code units and the number of bytes do, is
the sum over the parts of the value (`Additive.size_arr`, `Additive.size_obj`).
-/

namespace NexusClaw.CompactText
open AuditChain (Units JsonValue NumberFormat Number unit units join joinRest serializeNumber unitBytes
  byteLength parse Reads ReadsMember reads_word reads_num reads_arr reads_members run_append
  serializeNumber_unsigned)
open MetadataRuntime (quote quoteUnits unsign unsign_arr unsign_obj reads_quote run_quote)

/-! ## JSON.stringify -/

/-- A member of an object, its value already written. -/
def member (key text : Units) : Units :=
  quote key ++ unit ':' :: text

mutual
/-- `JSON.stringify(value)` -/
def stringify (fmt : NumberFormat) : JsonValue → Units
  | .null => units "null"
  | .bool b => if b then units "true" else units "false"
  | .num n => serializeNumber fmt n
  | .str s => quote s
  | .arr vs => unit '[' :: (join (stringifyAll fmt vs) ++ [unit ']'])
  | .obj fields => unit '\x7b' :: (join (stringifyFields fmt fields) ++ [unit '\x7d'])

def stringifyAll (fmt : NumberFormat) : List JsonValue → List Units
  | [] => []
  | v :: vs => stringify fmt v :: stringifyAll fmt vs

def stringifyFields (fmt : NumberFormat) : List (Units × JsonValue) → List Units
  | [] => []
  | f :: fs => stringifyField fmt f :: stringifyFields fmt fs

def stringifyField (fmt : NumberFormat) : Units × JsonValue → Units
  | (key, v) => member key (stringify fmt v)
end

section text
variable (fmt : NumberFormat)

/-- The text of an array. -/
lemma stringify_arr (vs : List JsonValue) :
    stringify fmt (.arr vs) = unit '[' :: (join (vs.map (stringify fmt)) ++ [unit ']']) := by
  have hall : stringifyAll fmt vs = vs.map (stringify fmt) := by
    induction vs with
    | nil => rfl
    | cons v vs ih => rw [stringifyAll, ih, List.map_cons]
  rw [stringify, hall]

/-- The text of an object. -/
lemma stringify_obj (fields : List (Units × JsonValue)) :
    stringify fmt (.obj fields) =
      unit '\x7b' :: (join (fields.map fun f => member f.1 (stringify fmt f.2)) ++ [unit '\x7d']) := by
  have hall : stringifyFields fmt fields = fields.map fun f => member f.1 (stringify fmt f.2) := by
    induction fields with
    | nil => rfl
    | cons f fs ih => rw [stringifyFields, ih, List.map_cons, stringifyField]
  rw [stringify, hall]

/-! ## Reading the text -/

/-- A member is read if its value is. -/
lemma readsMember_quote {key text : Units} {v : JsonValue} (h : Reads fmt v text) :
    ReadsMember fmt key v (member key text) := by
  constructor
  · intro stack
    rfl
  · intro done stack
    obtain ⟨s, hrun, hs⟩ := h.reads (.obj done key :: stack)
    refine ⟨s, ?_, hs⟩
    show AuditChain.run fmt (.text (.key done) [] .none, stack)
      (quoteUnits key ++ [unit '"'] ++ unit ':' :: text) = _
    rw [run_append, run_quote, Option.bind_some]
    exact hrun

/-- A value is read back, apart from the sign of a zero. -/
lemma reads_stringify {v : JsonValue} (hv : v.Distinct) : Reads fmt (unsign v) (stringify fmt v) := by
  induction v with
  | null => exact reads_word .null
  | bool b =>
    cases b with
    | true => exact reads_word .true
    | false => exact reads_word .false
  | num n =>
    rw [unsign, stringify, serializeNumber_unsigned]
    exact reads_num n.unsigned_ne_negZero
  | str s => exact reads_quote s
  | arr vs ih =>
    rw [JsonValue.distinct_arr] at hv
    rw [unsign_arr, stringify_arr]
    exact reads_arr fun v hmem => ih v hmem (hv v hmem)
  | obj fields ih =>
    obtain ⟨hnodup, hfields⟩ := JsonValue.distinct_obj.1 hv
    rw [unsign_obj, stringify_obj]
    refine reads_members (fun f hf => ?_) hnodup
    exact readsMember_quote fmt (ih f hf (hfields f hf))

/-- A text is parsed to its value, apart from the sign of a zero. -/
lemma parse_stringify {v : JsonValue} (hv : v.Distinct) :
    parse fmt (stringify fmt v) = some (unsign v) := by
  obtain ⟨s, hrun, hs⟩ := (reads_stringify fmt hv).reads []
  unfold parse
  rw [hrun, Option.bind_some, hs]

end text

/-! ## What is in every text -/

section pieces
variable {P : UInt16 → Prop}

/-- What holds of a comma and of the parts holds of what they are joined to. -/
lemma forall_joinRest {ts : List Units} (hcomma : P (unit ',')) (h : ∀ t ∈ ts, ∀ c ∈ t, P c) :
    ∀ c ∈ joinRest ts, P c := by
  induction ts with
  | nil => exact List.forall_mem_nil _
  | cons t ts ih =>
    obtain ⟨ht, hts⟩ := List.forall_mem_cons.1 h
    exact List.forall_mem_cons.2 ⟨hcomma, List.forall_mem_append.2 ⟨ht, ih hts⟩⟩

/-- And of the brackets around it. -/
lemma forall_bracketed {opening closing : UInt16} {ts : List Units} (hopen : P opening)
    (hclose : P closing) (hcomma : P (unit ',')) (h : ∀ t ∈ ts, ∀ c ∈ t, P c) :
    ∀ c ∈ opening :: (join ts ++ [closing]), P c := by
  refine List.forall_mem_cons.2 ⟨hopen, List.forall_mem_append.2 ⟨?_, List.forall_mem_singleton.2 hclose⟩⟩
  cases ts with
  | nil => exact List.forall_mem_nil _
  | cons t ts =>
    obtain ⟨ht, hts⟩ := List.forall_mem_cons.1 h
    exact List.forall_mem_append.2 ⟨ht, forall_joinRest hcomma hts⟩

/-- A text of `JSON.stringify` has no control character. -/
lemma stringify_printable (fmt : NumberFormat) (v : JsonValue) : ∀ c ∈ stringify fmt v, 0x20 ≤ c := by
  induction v with
  | null =>
    rw [stringify]
    decide
  | bool b =>
    rw [stringify]
    cases b with
    | true => decide
    | false => decide
  | num n => exact MetadataRuntime.serializeNumber_printable fmt n
  | str s => exact MetadataRuntime.quote_printable s
  | arr vs ih =>
    rw [stringify_arr]
    refine forall_bracketed (by decide) (by decide) (by decide) ?_
    exact List.forall_mem_map.2 ih
  | obj fields ih =>
    rw [stringify_obj]
    refine forall_bracketed (by decide) (by decide) (by decide) ?_
    refine List.forall_mem_map.2 fun f hf => List.forall_mem_append.2 ⟨?_, ?_⟩
    · exact MetadataRuntime.quote_printable f.1
    · exact List.forall_mem_cons.2 ⟨by decide, ih f hf⟩

end pieces

/-! ## Sizes -/

/-- A measure of texts that an ASCII character starts afresh. -/
structure Additive (size : Units → Nat) : Prop where
  nil : size [] = 0
  cons : ∀ c s, c < 0x80 → size (c :: s) = size s + 1
  append : ∀ s c t, c < 0x80 → size (s ++ c :: t) = size s + size (c :: t)

/-- The length is a size. -/
lemma additive_length : Additive List.length where
  nil := rfl
  cons _ _ _ := List.length_cons
  append _ _ _ _ := List.length_append

/-- So is the number of bytes. -/
lemma additive_byteLength : Additive byteLength where
  nil := rfl
  cons c s hc := by
    cases s with
    | nil => exact if_pos hc
    | cons d s =>
      have hhigh : ¬ (0xd800 ≤ c ∧ c < 0xdc00 ∧ 0xdc00 ≤ d ∧ d < 0xe000) := fun h =>
        absurd (UInt16.lt_of_le_of_lt h.1 hc) (by decide)
      rw [byteLength, if_neg hhigh, unitBytes, if_pos hc, Nat.add_comm]
  append s _ t hc := AuditChain.byteLength_append s hc t

/-- The size of parts between brackets, with commas between them. -/
def bracketedSize (sizes : List Nat) : Nat :=
  2 + sizes.sum + (sizes.length - 1)

namespace Additive
variable {size : Units → Nat} (h : Additive size)

include h

/-- A text of ASCII is as long as its size. -/
lemma ascii {s : Units} (hs : ∀ c ∈ s, c < 0x80) : size s = s.length := by
  induction s with
  | nil => exact h.nil
  | cons c s ih =>
    obtain ⟨hc, hs⟩ := List.forall_mem_cons.1 hs
    rw [h.cons c s hc, ih hs, List.length_cons]

/-- The size of joined parts. -/
lemma size_joinRest (ts : List Units) {c : UInt16} (hc : c < 0x80) :
    size (joinRest ts ++ [c]) = (ts.map size).sum + ts.length + 1 := by
  induction ts with
  | nil => exact (h.cons c [] hc).trans (by rw [h.nil]; rfl)
  | cons t ts ih =>
    have hrest : size (t ++ (joinRest ts ++ [c])) = size t + size (joinRest ts ++ [c]) := by
      cases ts with
      | nil => exact h.append t c [] hc
      | cons u us => exact h.append t (unit ',') _ (by decide)
    rw [joinRest, List.cons_append, h.cons _ _ (by decide), List.append_assoc, hrest, ih, List.map_cons,
      List.sum_cons, List.length_cons]
    omega

/-- The size of parts in brackets. -/
lemma size_bracketed {o c : UInt16} (ho : o < 0x80) (hc : c < 0x80) (ts : List Units) :
    size (o :: (join ts ++ [c])) = bracketedSize (ts.map size) := by
  rw [h.cons _ _ ho]
  cases ts with
  | nil => exact congrArg (· + 1) ((h.cons c [] hc).trans (by rw [h.nil]))
  | cons t ts =>
    have hrest : size (t ++ (joinRest ts ++ [c])) = size t + size (joinRest ts ++ [c]) := by
      cases ts with
      | nil => exact h.append t c [] hc
      | cons u us => exact h.append t (unit ',') _ (by decide)
    rw [join, List.append_assoc, hrest, h.size_joinRest ts hc]
    simp only [bracketedSize, List.map_cons, List.sum_cons, List.length_cons, List.length_map]
    omega

/-- The size of a member. -/
lemma size_member (key text : Units) : size (member key text) = size (quote key) + 1 + size text := by
  rw [member, h.append _ _ _ (by decide), h.cons _ _ (by decide)]
  omega

/-- The size of an array. -/
lemma size_arr (fmt : NumberFormat) (vs : List JsonValue) :
    size (stringify fmt (.arr vs)) = bracketedSize (vs.map fun v => size (stringify fmt v)) := by
  rw [stringify_arr, h.size_bracketed (by decide) (by decide), List.map_map]
  rfl

/-- The size of an object. -/
lemma size_obj (fmt : NumberFormat) (fields : List (Units × JsonValue)) :
    size (stringify fmt (.obj fields)) =
      bracketedSize (fields.map fun f => size (quote f.1) + 1 + size (stringify fmt f.2)) := by
  rw [stringify_obj, h.size_bracketed (by decide) (by decide), List.map_map]
  exact congrArg bracketedSize (List.map_congr_left fun f _ => h.size_member f.1 _)

end Additive

end NexusClaw.CompactText
