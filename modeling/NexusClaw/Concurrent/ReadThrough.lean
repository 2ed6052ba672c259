import Mathlib.Data.List.Induction
import NexusClaw.Concurrent.Pool
import NexusClaw.Concurrent.Table

/-!
# Reading through a cache

A cache whose entries expire, in front of a source that changes. A lookup asks the cache first; what
it misses there it reads from the source and stores for `ttl` seconds. Any number of lookups run at
once, time passes, the source changes and entries are dropped between any two of their statements,
and each statement may fail. What a lookup returns is what the source has answered at an earlier
moment, to a question with the same key; how long ago that was is bounded by `ttl` and by the time
that a lookup takes between two statements (`lookup_served`).
-/

namespace Concurrent.ReadThrough

variable {Q K V τ D ι α : Type}

/-- What a cache is put in front of: `answer data q` is what the source answers to the question `q`
when it holds `data`. The cache keeps it under `key q` as a text, from which it is read back. -/
structure Source (Q K V τ D : Type) where
  answer : D → Q → V
  key : Q → K
  encode : V → τ
  decode : τ → Option V
  decode_encode : ∀ data q, decode (encode (answer data q)) = some (answer data q)

/-! ## The world -/

inductive Statement (Q K τ D : Type) where
  | get (k : K)
  | find (q : Q)
  | set (k : K) (text : τ) (seconds : Nat)
  | change (f : D → D)
  | wait (seconds : Nat)
  | evict (k : K)

/-- The response of a statement. -/
abbrev Answer (V : Type) : Statement Q K τ D → Type
  | .get _ => Except Unit (Option τ)
  | .find _ => Except String V
  | .set _ _ _ => Except Unit Unit
  | .change _ => Unit
  | .wait _ => Unit
  | .evict _ => Unit

structure Entry (τ : Type) where
  text : τ
  expires : Nat

/-- How a statement fails: before it is done, or with its answer lost. -/
inductive Fault where
  | refused
  | answerLost
deriving DecidableEq, Repr

/-- The source and the cache; the statement with number `n` meets the fault `faults n`. -/
structure World (K τ D : Type) where
  data : D
  entries : Table K (Entry τ)
  now : Nat
  faults : Nat → Option Fault
  issued : Nat

/-- Nothing is in the cache yet. -/
def World.start (data : D) (faults : Nat → Option Fault) : World K τ D where
  data := data
  entries := fun _ => none
  now := 0
  faults := faults
  issued := 0

/-- The message of a source that failed. -/
def failed : String :=
  "QueryFailedError"

section exec
variable [DecidableEq K] (src : Source Q K V τ D)

/-- What a statement does without a fault. -/
def perform : (s : Statement Q K τ D) → World K τ D → World K τ D × Answer V s
  | .get k, w => (w, .ok (((w.entries k).filter fun e => w.now < e.expires).map (·.text)))
  | .find q, w => (w, .ok (src.answer w.data q))
  | .set k text seconds, w =>
    ({ w with entries := w.entries.put k ⟨text, w.now + seconds⟩ }, .ok ())
  | .change f, w => ({ w with data := f w.data }, ())
  | .wait seconds, w => ({ w with now := w.now + seconds }, ())
  | .evict k, w => ({ w with entries := Function.update w.entries k none }, ())

/-- The response of a statement that failed. -/
def failure : (s : Statement Q K τ D) → Answer V s
  | .get _ => .error ()
  | .find _ => .error failed
  | .set _ _ _ => .error ()
  | .change _ => ()
  | .wait _ => ()
  | .evict _ => ()

def World.next (w : World K τ D) : World K τ D :=
  { w with issued := w.issued + 1 }

def exec (s : Statement Q K τ D) (w : World K τ D) : World K τ D × Answer V s :=
  match w.faults w.issued with
  | none => perform src s w.next
  | some .refused => (w.next, failure s)
  | some .answerLost => ((perform src s w.next).1, failure s)

variable {src} {s : Statement Q K τ D} {w : World K τ D}

/-- A statement is done, or nothing is. -/
lemma exec_cases (src : Source Q K V τ D) (s : Statement Q K τ D) (w : World K τ D) :
    (exec src s w).1 = w.next ∨ (exec src s w).1 = (perform src s w.next).1 := by
  unfold exec
  split
  · exact .inr rfl
  · exact .inl rfl
  · exact .inr rfl

/-- The statement that puts an entry into the cache is a `set`. -/
lemma exec_entry {k : K} {entry : Entry τ} (h : (exec src s w).1.entries k = some entry) :
    w.entries k = some entry ∨
      ∃ text seconds, s = .set k text seconds ∧ entry = ⟨text, w.now + seconds⟩ := by
  rcases exec_cases src s w with hnext | hdone
  · rw [hnext] at h
    exact .inl h
  rw [hdone] at h
  cases s with
  | set k' text seconds =>
    by_cases hk : k = k'
    · subst hk
      exact .inr ⟨text, seconds, rfl, (Option.some.inj ((Table.put_self ..).symm.trans h)).symm⟩
    · exact .inl ((Table.put_of_ne _ _ hk).symm.trans h)
  | evict k' =>
    by_cases hk : k = k'
    · subst hk
      have hnone : (perform src (.evict k) w.next).1.entries k = none := Function.update_self ..
      rw [hnone] at h
      cases h
    · exact .inl ((Function.update_of_ne hk ..).symm.trans h)
  | get k' => exact .inl h
  | find q => exact .inl h
  | change f => exact .inl h
  | wait seconds => exact .inl h

/-- What the cache answers has not expired. -/
lemma exec_get {k : K} {text : τ} (h : (exec src (.get k) w).2 = .ok (some text)) :
    ∃ entry, w.entries k = some entry ∧ entry.text = text ∧ w.now < entry.expires := by
  unfold exec at h
  split at h
  · obtain ⟨entry, hentry, htext⟩ := Option.map_eq_some_iff.1 (Except.ok.inj h)
    obtain ⟨hfound, hlive⟩ := Option.filter_eq_some_iff.1 hentry
    exact ⟨entry, hfound, htext, of_decide_eq_true hlive⟩
  · cases h
  · cases h

/-- What is found is what the data answer. -/
lemma exec_find {q : Q} {v : V} (h : (exec src (.find q) w).2 = .ok v) :
    v = src.answer w.data q := by
  unfold exec at h
  split at h
  · exact (Except.ok.inj h).symm
  · cases h
  · cases h

end exec

/-! ## Lookups -/

section programs
variable (src : Source Q K V τ D) (ttl : Nat)

abbrev CacheProg (Q K V τ D α : Type) : Type :=
  Prog (Statement Q K τ D) (Answer V) String α

/-- The end of a program with a result that is known. -/
def finish : Except String α → CacheProg Q K V τ D α
  | .ok a => .ret a
  | .error e => .throw e

/-- What a lookup makes of the response of the cache. -/
def hit : Except Unit (Option τ) → Option V
  | .ok (some text) => src.decode text
  | _ => none

/-- The answer is stored; whether that succeeds does not matter. -/
def store (q : Q) (use : V → Except String α) (v : V) : CacheProg Q K V τ D α :=
  .stmt (.set (src.key q) (src.encode v) ttl) fun _ => finish (use v)

/-- What a lookup makes of the response of the source. -/
def answered (cached : Bool) (q : Q) (use : V → Except String α) :
    Except String V → CacheProg Q K V τ D α
  | .error e => .throw e
  | .ok v => if cached then store src ttl q use v else finish (use v)

/-- The source is asked. -/
def fetch (cached : Bool) (q : Q) (use : V → Except String α) : CacheProg Q K V τ D α :=
  .stmt (.find q) (answered src ttl cached q use)

/-- What a lookup does after the response of the cache. -/
def looked (q : Q) (use : V → Except String α) : Option V → CacheProg Q K V τ D α
  | some v => finish (use v)
  | none => fetch src ttl true q use

/-- A lookup whose answer is used by a computation; without a cache only the source is asked. -/
def lookup (cached : Bool) (q : Q) (use : V → Except String α) : CacheProg Q K V τ D α :=
  if cached then .stmt (.get (src.key q)) fun response => looked src ttl q use (hit src response)
  else fetch src ttl false q use

/-- The statements of other programs. -/
def Quiet : Statement Q K τ D → Prop
  | .change _ => True
  | .wait _ => True
  | .evict _ => True
  | _ => False

/-- What runs at once. -/
inductive Request (Q K V τ D α : Type) where
  | lookup (cached : Bool) (q : Q) (use : V → Except String α)
  | other (p : CacheProg Q K V τ D α) (quiet : p.Uses Quiet)

def Request.program : Request Q K V τ D α → CacheProg Q K V τ D α
  | .lookup cached q use => ReadThrough.lookup src ttl cached q use
  | .other p _ => p

/-- A lookup asks this question. -/
def Request.Asks (request : Request Q K V τ D α) (q : Q) : Prop :=
  ∃ cached use, request = .lookup cached q use

/-- Two results finish differently. -/
lemma finish_injective {r r' : Except String α}
    (h : (finish r : CacheProg Q K V τ D α) = finish r') : r = r' := by
  cases r with
  | ok a =>
    cases r' with
    | ok b => exact congrArg Except.ok (Prog.ret.inj h)
    | error e => cases h
  | error e =>
    cases r' with
    | ok b => cases h
    | error e' => exact congrArg Except.error (Prog.throw.inj h)

end programs

/-! ## Runs -/

section runs
variable [DecidableEq K] [DecidableEq ι]
variable (src : Source Q K V τ D) (ttl : Nat) (w : World K τ D) (requests : ι → Request Q K V τ D α)

def played (sched : List ι) : Pool (Statement Q K τ D) (Answer V) String α (World K τ D) ι :=
  (Pool.start w fun i => (requests i).program src ttl).play (exec src) sched

/-- The world after a schedule. -/
def worldAt (sched : List ι) : World K τ D :=
  (played src ttl w requests sched).world

/-- Each lookup takes its next statement at most `d` seconds after the last one. -/
def Prompt (d : Nat) (sched : List ι) : Prop :=
  ∀ i q before between, (requests i).Asks q → before ++ i :: (between ++ [i]) <+: sched →
    i ∉ between →
    (worldAt src ttl w requests (before ++ i :: between)).now ≤
      (worldAt src ttl w requests before).now + d

/-- `v` is what the source has answered after `before` to a question with the key of `q`; the lookup `i`
learnt it after `learnt`. -/
structure Answered (d : Nat) (sched : List ι) (i : ι) (q : Q) (v : V) (before learnt : List ι) :
    Prop where
  earlier : before <+: learnt
  within : learnt ++ [i] <+: sched
  source : ∃ j q', (requests j).Asks q' ∧ src.key q' = src.key q ∧
    v = src.answer (worldAt src ttl w requests before).data q'
  fresh : (worldAt src ttl w requests learnt).now ≤
    (worldAt src ttl w requests before).now + ttl + d

/-- A lookup has an answer. -/
def Served (d : Nat) (sched : List ι) (i : ι) (q : Q) (v : V) : Prop :=
  ∃ before learnt, Answered src ttl w requests d sched i q v before learnt

/-- Where a lookup stands. -/
inductive Stage (d : Nat) (sched : List ι) (i : ι) (q : Q) (use : V → Except String α) :
    CacheProg Q K V τ D α → Prop
  | asks : Stage d sched i q use (lookup src ttl true q use)
  | misses (cached : Bool) : Stage d sched i q use (fetch src ttl cached q use)
  | stores (before between : List ι) : sched = before ++ i :: between → i ∉ between →
      Stage d sched i q use
        (store src ttl q use (src.answer (worldAt src ttl w requests before).data q))
  | ends (v : V) : Served src ttl w requests d sched i q v → Stage d sched i q use (finish (use v))
  | fails (e : String) : (⟨.find q, .error e⟩ : Sigma (Answer V)) ∈
      (played src ttl w requests sched).seen i → Stage d sched i q use (.throw e)

/-- What stands in the cache. -/
def Filled (d : Nat) (sched : List ι) (w' : World K τ D) : Prop :=
  ∀ k entry, w'.entries k = some entry → ∃ j q before, (requests j).Asks q ∧ src.key q = k ∧
    before <+: sched ∧
    entry.text = src.encode (src.answer (worldAt src ttl w requests before).data q) ∧
    entry.expires ≤ (worldAt src ttl w requests before).now + ttl + d

structure Kept (d : Nat) (sched : List ι) : Prop where
  filled : Filled src ttl w requests d sched (worldAt src ttl w requests sched)
  lookups : ∀ i cached q use, requests i = .lookup cached q use →
    Stage src ttl w requests d sched i q use ((played src ttl w requests sched).thread i)
  others : ∀ i p quiet, requests i = .other p quiet →
    ((played src ttl w requests sched).thread i).Uses Quiet

variable {src ttl w requests} {d : Nat} {sched : List ι} {i : ι} {q : Q} {v : V}
  {use : V → Except String α}

/-- A schedule is played one step after the other. -/
lemma played_concat (sched : List ι) (i : ι) :
    played src ttl w requests (sched ++ [i]) =
      (played src ttl w requests sched).advance (exec src) i := by
  unfold played
  rw [Pool.play_append, Pool.play_cons, Pool.play_nil]

/-- A prompt schedule was prompt before. -/
lemma Prompt.early {sched' : List ι} (h : Prompt src ttl w requests d (sched ++ sched')) :
    Prompt src ttl w requests d sched :=
  fun i q before between hasks hwithin hi =>
    h i q before between hasks (hwithin.trans (List.prefix_append ..)) hi

/-- What was served stays so in a longer schedule. -/
lemma Served.later (h : Served src ttl w requests d sched i q v) (sched' : List ι) :
    Served src ttl w requests d (sched ++ sched') i q v := by
  obtain ⟨before, learnt, h⟩ := h
  exact ⟨before, learnt, { h with within := h.within.trans (List.prefix_append ..) }⟩

/-- What was filled stays so in a longer schedule. -/
lemma Filled.later {w' : World K τ D} (h : Filled src ttl w requests d sched w')
    (sched' : List ι) : Filled src ttl w requests d (sched ++ sched') w' := by
  intro k entry hentry
  obtain ⟨j, q, before, hasks, hkey, hbefore, hrest⟩ := h k entry hentry
  exact ⟨j, q, before, hasks, hkey, hbefore.trans (List.prefix_append ..), hrest⟩

/-- Another program moves. -/
lemma Stage.other {j : ι} {p : CacheProg Q K V τ D α}
    (h : Stage src ttl w requests d sched i q use p) (hj : j ≠ i)
    (hseen : (played src ttl w requests sched).seen i ⊆
      (played src ttl w requests (sched ++ [j])).seen i) :
    Stage src ttl w requests d (sched ++ [j]) i q use p := by
  cases h with
  | asks => exact .asks
  | misses cached => exact .misses cached
  | stores before between hsched hi =>
    refine .stores before (between ++ [j]) ?_ ?_
    · rw [hsched, List.append_assoc, List.cons_append]
    · intro hmem
      rcases List.mem_append.1 hmem with hold | hnew
      · exact hi hold
      · exact hj (List.mem_singleton.1 hnew).symm
  | ends v hserved => exact .ends v (hserved.later [j])
  | fails e he => exact .fails e (hseen he)

/-- The answer of the source is the answer at this moment. -/
lemma served_now (hasks : (requests i).Asks q) :
    Served src ttl w requests d (sched ++ [i]) i q
      (src.answer (worldAt src ttl w requests sched).data q) := by
  refine ⟨sched, sched, List.prefix_rfl, List.prefix_rfl, ⟨i, q, hasks, rfl, rfl⟩, ?_⟩
  omega

/-- What is read from the cache has been the answer of the source. -/
lemma served_hit (hfilled : Filled src ttl w requests d sched (worldAt src ttl w requests sched))
    (h : hit src (exec src (.get (src.key q)) (worldAt src ttl w requests sched)).2 = some v) :
    Served src ttl w requests d (sched ++ [i]) i q v := by
  generalize hresponse : (exec src (.get (src.key q)) (worldAt src ttl w requests sched)).2 =
    response at h
  cases response with
  | error e => cases h
  | ok found =>
    cases found with
    | none => cases h
    | some text =>
      obtain ⟨entry, hentry, htext, hlive⟩ := exec_get hresponse
      obtain ⟨j, q', before, hasks, hkey, hbefore, hencoded, hexpires⟩ := hfilled _ _ hentry
      refine ⟨before, sched, hbefore, List.prefix_rfl, ⟨j, q', hasks, hkey, ?_⟩, ?_⟩
      · have hdecode : src.decode text = some v := h
        rw [← htext, hencoded, src.decode_encode] at hdecode
        exact (Option.some.inj hdecode).symm
      · omega

/-- A statement fills the cache as it may. -/
lemma Filled.exec {s : Statement Q K τ D}
    (h : Filled src ttl w requests d sched (worldAt src ttl w requests sched))
    (hset : ∀ k text seconds, s = .set k text seconds → ∃ j q before, (requests j).Asks q ∧
      src.key q = k ∧ before <+: sched ∧
      text = src.encode (src.answer (worldAt src ttl w requests before).data q) ∧
      (worldAt src ttl w requests sched).now + seconds ≤
        (worldAt src ttl w requests before).now + ttl + d) (i : ι) :
    Filled src ttl w requests d (sched ++ [i])
      (exec src s (worldAt src ttl w requests sched)).1 := by
  intro k entry hentry
  rcases exec_entry hentry with hold | ⟨text, seconds, hs, hnew⟩
  · exact h.later [i] k entry hold
  · obtain ⟨j, q, before, hasks, hkey, hbefore, htext, hexpires⟩ := hset k text seconds hs
    subst hnew
    exact ⟨j, q, before, hasks, hkey, hbefore.trans (List.prefix_append ..), htext, hexpires⟩

/-- The state after one more step. -/
lemma worldAt_concat {s : Statement Q K τ D} {k : Answer V s → CacheProg Q K V τ D α}
    (h : (played src ttl w requests sched).thread i = .stmt s k) :
    worldAt src ttl w requests (sched ++ [i]) =
      (exec src s (worldAt src ttl w requests sched)).1 := by
  unfold worldAt
  rw [played_concat, Pool.advance_stmt h]

/-- The request after one more step. -/
lemma thread_concat {s : Statement Q K τ D} {k : Answer V s → CacheProg Q K V τ D α}
    (h : (played src ttl w requests sched).thread i = .stmt s k) :
    (played src ttl w requests (sched ++ [i])).thread i =
      k (exec src s (worldAt src ttl w requests sched)).2 := by
  rw [played_concat, Pool.advance_stmt h]
  exact Function.update_self ..

/-- The history after one more step. -/
lemma seen_concat {s : Statement Q K τ D} {k : Answer V s → CacheProg Q K V τ D α}
    (h : (played src ttl w requests sched).thread i = .stmt s k) :
    (⟨s, (exec src s (worldAt src ttl w requests sched)).2⟩ : Sigma (Answer V)) ∈
      (played src ttl w requests (sched ++ [i])).seen i := by
  have hnow : (played src ttl w requests (sched ++ [i])).seen i =
      (played src ttl w requests sched).seen i ++
        [⟨s, (exec src s (worldAt src ttl w requests sched)).2⟩] := by
    rw [played_concat, Pool.advance_stmt h]
    exact Function.update_self ..
  rw [hnow]
  exact List.mem_append_right _ (List.mem_singleton_self _)

/-- A program that has ended stands still. -/
lemma played_ended {r : Except String α}
    (h : (played src ttl w requests sched).thread i = finish r) :
    played src ttl w requests (sched ++ [i]) = played src ttl w requests sched := by
  rw [played_concat]
  cases r with
  | ok a => exact Pool.advance_ret h
  | error e => exact Pool.advance_throw h

/-- One statement of a lookup. -/
lemma Stage.step (hasks : (requests i).Asks q)
    (hfilled : Filled src ttl w requests d sched (worldAt src ttl w requests sched))
    (hprompt : Prompt src ttl w requests d (sched ++ [i]))
    {p : CacheProg Q K V τ D α} (hthread : (played src ttl w requests sched).thread i = p)
    (h : Stage src ttl w requests d sched i q use p) :
    Filled src ttl w requests d (sched ++ [i]) (worldAt src ttl w requests (sched ++ [i])) ∧
      Stage src ttl w requests d (sched ++ [i]) i q use
        ((played src ttl w requests (sched ++ [i])).thread i) := by
  -- one case for each stage of a lookup
  cases h with
  | asks =>
    have hget : (played src ttl w requests sched).thread i = .stmt (.get (src.key q))
        fun response => looked src ttl q use (hit src response) := hthread.trans (if_pos rfl)
    rw [worldAt_concat hget, thread_concat hget]
    refine ⟨hfilled.exec (fun _ _ _ hs => by cases hs) i, ?_⟩
    cases hfound : hit src (Concurrent.ReadThrough.exec src (.get (src.key q))
        (worldAt src ttl w requests sched)).2 with
    | some v => exact .ends v (served_hit hfilled hfound)
    | none => exact .misses true
  | misses cached =>
    have hfind : (played src ttl w requests sched).thread i =
        .stmt (.find q) (answered src ttl cached q use) := hthread
    have hseen := seen_concat hfind
    rw [worldAt_concat hfind, thread_concat hfind]
    refine ⟨hfilled.exec (fun _ _ _ hs => by cases hs) i, ?_⟩
    generalize hresponse : (Concurrent.ReadThrough.exec src (.find q)
      (worldAt src ttl w requests sched)).2 = response at hseen
    cases response with
    | error e => exact .fails e hseen
    | ok v =>
      obtain rfl := exec_find hresponse
      cases cached with
      | true => exact .stores sched [] rfl List.not_mem_nil
      | false => exact .ends _ (served_now hasks)
  | stores before between hsched hi =>
    have hset : (played src ttl w requests sched).thread i = .stmt (.set (src.key q)
        (src.encode (src.answer (worldAt src ttl w requests before).data q)) ttl)
        fun _ => finish (use (src.answer (worldAt src ttl w requests before).data q)) := hthread
    have hbefore : before ++ [i] <+: sched ++ [i] := by
      rw [hsched, List.append_assoc]
      exact (List.prefix_append_right_inj before).2 ⟨between ++ [i], rfl⟩
    have hlate : (worldAt src ttl w requests sched).now ≤
        (worldAt src ttl w requests before).now + d := by
      have hall : before ++ i :: (between ++ [i]) = sched ++ [i] := by
        rw [hsched, List.append_assoc, List.cons_append]
      have hstep := hprompt i q before between hasks ⟨[], (List.append_nil _).trans hall⟩ hi
      rwa [← hsched] at hstep
    rw [worldAt_concat hset, thread_concat hset]
    constructor
    · refine hfilled.exec (fun k text seconds hs => ?_) i
      cases hs
      refine ⟨i, q, before, hasks, rfl, ?_, rfl, ?_⟩
      · exact ⟨i :: between, hsched.symm⟩
      · omega
    · refine .ends _ ⟨before, before, List.prefix_rfl, hbefore, ⟨i, q, hasks, rfl, rfl⟩, ?_⟩
      omega
  | ends v hserved =>
    have hstill := played_ended hthread
    unfold worldAt
    rw [hstill, hthread]
    exact ⟨hfilled.later [i], .ends v (hserved.later [i])⟩
  | fails e he =>
    have hstill := played_ended (r := .error e) hthread
    unfold worldAt
    rw [hstill, hthread]
    refine ⟨hfilled.later [i], .fails e ?_⟩
    rwa [hstill]

/-- The invariant holds with an empty cache. -/
lemma kept_start (hempty : ∀ k, w.entries k = none) : Kept src ttl w requests d [] where
  filled := fun k entry hentry => by cases (hempty k).symm.trans hentry
  lookups := by
    intro i cached q use hi
    have hthread : (played src ttl w requests []).thread i = lookup src ttl cached q use :=
      congrArg (Request.program src ttl) hi
    rw [hthread]
    cases cached with
    | true => exact .asks
    | false => exact .misses false
  others := by
    intro i p quiet hi
    have hthread : (played src ttl w requests []).thread i = p :=
      congrArg (Request.program src ttl) hi
    rwa [hthread]

/-- What a program has seen, it still has after the step of another one. -/
lemma seen_subset_concat (j : ι) : (played src ttl w requests sched).seen i ⊆
    (played src ttl w requests (sched ++ [j])).seen i := by
  rw [played_concat]
  exact Pool.seen_subset_play (exec src) _ i [j]

/-- A step of another leaves a request. -/
lemma thread_other {j : ι} (hj : i ≠ j) : (played src ttl w requests (sched ++ [j])).thread i =
    (played src ttl w requests sched).thread i := by
  rw [played_concat]
  cases hthread : (played src ttl w requests sched).thread j with
  | ret a => rw [Pool.advance_ret hthread]
  | throw e => rw [Pool.advance_throw hthread]
  | stmt s k =>
    rw [Pool.advance_stmt hthread]
    exact Function.update_of_ne hj ..

/-- One statement of another program. -/
lemma Filled.other (hfilled : Filled src ttl w requests d sched (worldAt src ttl w requests sched))
    (hquiet : ((played src ttl w requests sched).thread i).Uses Quiet) :
    Filled src ttl w requests d (sched ++ [i]) (worldAt src ttl w requests (sched ++ [i])) ∧
      ((played src ttl w requests (sched ++ [i])).thread i).Uses Quiet := by
  cases hthread : (played src ttl w requests sched).thread i with
  | ret a =>
    have hstill := played_ended (r := .ok a) hthread
    unfold worldAt
    rw [hstill, hthread]
    exact ⟨hfilled.later [i], trivial⟩
  | throw e =>
    have hstill := played_ended (r := .error e) hthread
    unfold worldAt
    rw [hstill, hthread]
    exact ⟨hfilled.later [i], trivial⟩
  | stmt s k =>
    rw [hthread] at hquiet
    rw [worldAt_concat hthread, thread_concat hthread]
    refine ⟨hfilled.exec (fun _ _ _ hs => ?_) i, hquiet.2 _⟩
    subst hs
    exact hquiet.1.elim

/-- What one program more keeps. -/
lemma Kept.step (h : Kept src ttl w requests d sched)
    (hprompt : Prompt src ttl w requests d (sched ++ [i])) :
    Kept src ttl w requests d (sched ++ [i]) := by
  have hself : Filled src ttl w requests d (sched ++ [i])
      (worldAt src ttl w requests (sched ++ [i])) ∧
      (∀ cached q use, requests i = .lookup cached q use →
        Stage src ttl w requests d (sched ++ [i]) i q use
          ((played src ttl w requests (sched ++ [i])).thread i)) ∧
      ∀ p quiet, requests i = .other p quiet →
        ((played src ttl w requests (sched ++ [i])).thread i).Uses Quiet := by
    -- a lookup goes to its next stage, another program changes nothing it relies on
    cases hi : requests i with
    | lookup cached q use =>
      have hstage := (h.lookups i cached q use hi).step ⟨cached, use, hi⟩ h.filled hprompt rfl
      refine ⟨hstage.1, fun cached' q' use' hsame => ?_, fun p quiet hsame => ?_⟩
      · cases hsame
        exact hstage.2
      · cases hsame
    | other p quiet =>
      have hother := h.filled.other (h.others i p quiet hi)
      refine ⟨hother.1, fun cached q use hsame => ?_, fun _ _ _ => hother.2⟩
      cases hsame
  obtain ⟨hfilled, hlookup, hquiet⟩ := hself
  refine ⟨hfilled, fun j cached q use hj => ?_, fun j p quiet hj => ?_⟩
  · by_cases hji : j = i
    · subst hji
      exact hlookup cached q use hj
    · rw [thread_other hji]
      exact (h.lookups j cached q use hj).other (Ne.symm hji) (seen_subset_concat i)
  · by_cases hji : j = i
    · subst hji
      exact hquiet p quiet hj
    · rw [thread_other hji]
      exact h.others j p quiet hj

/-- The invariant holds in every run, by induction on the schedule. -/
lemma kept_played (hempty : ∀ k, w.entries k = none)
    (hprompt : Prompt src ttl w requests d sched) : Kept src ttl w requests d sched := by
  induction sched using List.reverseRecOn with
  | nil => exact kept_start hempty
  | append_singleton sched i ih => exact (ih hprompt.early).step hprompt

/-- The time never goes back. -/
lemma now_le_exec (s : Statement Q K τ D) (w : World K τ D) : w.now ≤ (exec src s w).1.now := by
  rcases exec_cases src s w with hnext | hdone
  · rw [hnext]
    exact Nat.le_refl _
  · rw [hdone]
    cases s with
    | wait seconds => exact Nat.le_add_right ..
    | get k => exact Nat.le_refl _
    | find q => exact Nat.le_refl _
    | set k text seconds => exact Nat.le_refl _
    | change f => exact Nat.le_refl _
    | evict k => exact Nat.le_refl _

/-- Nor does it over a schedule. -/
lemma now_le_played (sched later : List ι) : (worldAt src ttl w requests sched).now ≤
    (worldAt src ttl w requests (sched ++ later)).now := by
  induction later using List.reverseRecOn with
  | nil => exact Nat.le_of_eq (by rw [List.append_nil])
  | append_singleton later i ih =>
    apply Nat.le_trans ih
    rw [← List.append_assoc]
    cases hthread : (played src ttl w requests (sched ++ later)).thread i with
    | ret a =>
      exact Nat.le_of_eq (congrArg (·.world.now) (played_ended (r := .ok a) hthread).symm)
    | throw e =>
      exact Nat.le_of_eq (congrArg (·.world.now) (played_ended (r := .error e) hthread).symm)
    | stmt s k =>
      rw [worldAt_concat hthread]
      exact now_le_exec s _

/-- Every run takes some time at most. -/
lemma prompt_now (sched : List ι) :
    Prompt src ttl w requests (worldAt src ttl w requests sched).now sched := by
  rintro i q before between - ⟨later, hsched⟩ -
  have hle : (worldAt src ttl w requests (before ++ i :: between)).now ≤
      (worldAt src ttl w requests ((before ++ i :: between) ++ i :: later)).now :=
    now_le_played _ _
  have hall : (before ++ i :: between) ++ i :: later = sched := by
    rw [← hsched]
    simp
  rw [hall] at hle
  omega

/-- A lookup that has ended has used an answer that the source has given to a question with the same
key, at most `ttl + d` seconds before the lookup learnt it; or the source has failed it. The cache never
does. -/
theorem lookup_served {cached : Bool} {r : Except String α} (hempty : ∀ k, w.entries k = none)
    (hprompt : Prompt src ttl w requests d sched) (hi : requests i = .lookup cached q use)
    (h : (played src ttl w requests sched).thread i = finish r) :
    (∃ v, Served src ttl w requests d sched i q v ∧ use v = r) ∨
      ∃ e, (⟨.find q, .error e⟩ : Sigma (Answer V)) ∈
        (played src ttl w requests sched).seen i ∧ r = .error e := by
  have hstage := (kept_played hempty hprompt).lookups i cached q use hi
  rw [h] at hstage
  generalize hp : (finish r : CacheProg Q K V τ D α) = p at hstage
  cases hstage with
  | asks => cases r <;> cases hp
  | misses cached => cases r <;> cases hp
  | stores before between hsched hi => cases r <;> cases hp
  | ends v hserved => exact .inl ⟨v, hserved, (finish_injective hp).symm⟩
  | fails e he =>
    have hr : r = .error e := finish_injective hp
    exact .inr ⟨e, he, hr⟩

end runs

end Concurrent.ReadThrough
