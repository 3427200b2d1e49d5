import ExactNeighbors.Proofs.Distance.Lanes
import ExactNeighbors.Proofs.Store.Run

/-! # Histories of a computer

Calls that succeed and calls that fail may follow each other in any order. What is answered depends
on the last query that was bound, and what is counted on the answers alone.
-/
namespace ExactNeighbors.Computer

inductive Call where
  | setQuery (q : List Score)
  | distanceTo (slot : Nat)
  | distanceToFour (slots : Four Nat)
  | symmetric (i j : Nat)

inductive Event where
  | setQuery (q : List Score) (answer : Except IndexError Unit)
  | distanceTo (slot : Nat) (answer : Except IndexError Score)
  | distanceToFour (slots : Four Nat) (answer : Except IndexError (Four Score))
  | symmetric (i j : Nat) (answer : Except IndexError Score)

namespace Event

def call : Event → Call
  | .setQuery q _ => .setQuery q
  | .distanceTo slot _ => .distanceTo slot
  | .distanceToFour slots _ => .distanceToFour slots
  | .symmetric i j _ => .symmetric i j

def bound? : Event → Option (List Score)
  | .setQuery q (.ok _) => some q
  | _ => none

/-- The evaluations that a call has made. A refused call for four slots has made some only where
slots are scored one after the other, up to the first that there is not. -/
def evaluations (a : Adapter) (physical : Nat) : Event → Nat
  | .distanceTo _ (.ok _) => 1
  | .distanceToFour _ (.ok _) => 4
  | .distanceToFour slots (.error (.outOfBounds _ _ _)) =>
    if a.kernelFour?.isNone then (slots.toList.takeWhile (· < physical)).length else 0
  | _ => 0

end Event

def lastBound (events : List Event) : Option (List Score) := events.reverse.findSome? Event.bound?

/-- What the answer to a call is while the query `bound` is bound. -/
inductive Answers (s : Store Single) (a : Adapter) (bound : Option (List Score)) : Event → Prop where
  | rebound (q : List Score) (fits : q.length = s.dimension) :
      Answers s a bound (.setQuery q (.ok ()))
  | misfit (q : List Score) (length : q.length ≠ s.dimension) :
      Answers s a bound (.setQuery q (.error (.dimensionMismatch s.dimension q.length)))
  | unset (slot : Nat) (query : bound = none) :
      Answers s a bound (.distanceTo slot (.error .queryNotSet))
  | scored (q : List Score) (slot : Nat) (y : List Score) (query : bound = some q)
      (inside : slot < s.physical) (stored : s.values slot = .ok y) :
      Answers s a bound (.distanceTo slot (.ok (a.kernel q y)))
  | beyond (q : List Score) (slot : Nat) (query : bound = some q) (outside : s.physical ≤ slot) :
      Answers s a bound (.distanceTo slot (.error (.outOfBounds slot 1 s.physical)))
  | unsetFour (slots : Four Nat) (query : bound = none) :
      Answers s a bound (.distanceToFour slots (.error .queryNotSet))
  | scoredFour (q : List Score) (slots : Four Nat) (ys : Four (List Score)) (query : bound = some q)
      (inside : ∀ slot ∈ slots.toList, slot < s.physical)
      (stored : slots.map s.values = ys.map .ok)
      (lanes : a.scoreFour q ys = ys.map (a.laneScore q)) :
      Answers s a bound (.distanceToFour slots (.ok (a.scoreFour q ys)))
  | beyondFour (q : List Score) (slots : Four Nat) (slot : Nat) (query : bound = some q)
      (first : slots.toList.find? (s.physical ≤ ·) = some slot) :
      Answers s a bound (.distanceToFour slots (.error (.outOfBounds slot 1 s.physical)))
  | paired (i j : Nat) (x y : List Score) (left : i < s.physical) (right : j < s.physical)
      (first : s.values i = .ok x) (second : s.values j = .ok y) :
      Answers s a bound (.symmetric i j (.ok (a.kernel y x)))
  | beyondRight (i j : Nat) (right : s.physical ≤ j) :
      Answers s a bound (.symmetric i j (.error (.outOfBounds j 1 s.physical)))
  | beyondLeft (i j : Nat) (right : j < s.physical) (left : s.physical ≤ i) :
      Answers s a bound (.symmetric i j (.error (.outOfBounds i 1 s.physical)))

def perform (s : Store Single) (c : Computer) : Call → Event × Computer
  | .setQuery q => let (answer, c') := c.run (setQuery s q); (.setQuery q answer, c')
  | .distanceTo slot => let (answer, c') := c.run (distanceTo s slot); (.distanceTo slot answer, c')
  | .distanceToFour slots =>
    let (answer, c') := c.run (distanceToFour s slots); (.distanceToFour slots answer, c')
  | .symmetric i j => (.symmetric i j (symmetric s c.adapter i j), c)

def history (s : Store Single) (c : Computer) : List Call → List Event × Computer
  | [] => ([], c)
  | call :: calls =>
    let (event, c₁) := c.perform s call
    let (events, c₂) := c₁.history s calls
    (event :: events, c₂)

theorem history_cons (s : Store Single) (c : Computer) (call : Call) (calls : List Call) :
    c.history s (call :: calls) =
      ((c.perform s call).1 :: ((c.perform s call).2.history s calls).1,
        ((c.perform s call).2.history s calls).2) := rfl

structure Step (s : Store Single) (c : Computer) (call : Call) (next : Event × Computer) :
    Prop where
  call_eq : next.1.call = call
  answers : Answers s c.adapter c.query? next.1
  adapter_eq : next.2.adapter = c.adapter
  query_eq : next.2.query? = next.1.bound?.or c.query?
  evaluations_eq : next.2.evaluations = c.evaluations + next.1.evaluations c.adapter s.physical

variable {s : Store Single} {c : Computer} {a : Adapter} {q : List Score} {e : IndexError}

theorem run_distanceToFour_unset (h : c.query? = none) (slots : Four Nat) :
    c.run (distanceToFour s slots) = (.error .queryNotSet, c) := by
  unfold distanceToFour
  rw [run_bind_ok (run_get c)]
  cases c.adapter.kernelFour? with
  | some kernel =>
    dsimp only
    rw [run_bind_error (run_query_unset h)]
  | none =>
    dsimp only
    rw [run_bind_error (run_distanceTo_unset h slots.a)]

/-- The slots of a batch are read in turn, up to the first that there is not. -/
theorem first_beyond {slots : Four Nat} {physical slot : Nat}
    (h : slots.toList.find? (physical ≤ ·) = some slot) :
    let read := (slots.toList.takeWhile (· < physical)).length
    physical ≤ slot ∧
      ((slots.a = slot ∧ read = 0) ∨
        (slots.a < physical ∧ slots.b = slot ∧ read = 1) ∨
        (slots.a < physical ∧ slots.b < physical ∧ slots.c = slot ∧ read = 2) ∨
        (slots.a < physical ∧ slots.b < physical ∧ slots.c < physical ∧ slots.d = slot ∧
          read = 3)) := by
  obtain ⟨w, x, y, z⟩ := slots
  simp only [Four.toList, List.find?_cons, List.takeWhile_cons] at h ⊢
  grind

theorem run_distanceToFour_error (h : s.Coherent) (hc : c.Bound a q) {slots : Four Nat} {slot : Nat}
    (hfirst : slots.toList.find? (s.physical ≤ ·) = some slot) :
    c.run (distanceToFour s slots) = (.error (.outOfBounds slot 1 s.physical),
      c.counted (if a.kernelFour?.isNone then
        (slots.toList.takeWhile (· < s.physical)).length else 0)) := by
  -- whichever slot is the first that there is not, the ones before it have been read
  obtain ⟨hbeyond, hcases⟩ := first_beyond hfirst
  have herror := Store.values_eq_error hbeyond
  have hquery := hc.query_eq
  unfold distanceToFour
  rw [run_bind_ok (run_get c), hc.adapter_eq]
  cases a.kernelFour? with
  | some kernel =>
    dsimp only
    rw [run_bind_ok (run_query hquery)]
    rcases hcases with ⟨rfl, -⟩ | ⟨h₁, rfl, -⟩ | ⟨h₁, h₂, rfl, -⟩ | ⟨h₁, h₂, h₃, rfl, -⟩
    · rw [herror]
      rfl
    · rw [herror, h.values_eq h₁]
      rfl
    · rw [herror, h.values_eq h₁, h.values_eq h₂]
      rfl
    · rw [herror, h.values_eq h₁, h.values_eq h₂, h.values_eq h₃]
      rfl
  | none =>
    have hc₁ := hc.counted 1
    have hc₂ := hc₁.counted 1
    have hc₃ := hc₂.counted 1
    dsimp only
    rcases hcases with ⟨rfl, hread⟩ | ⟨h₁, rfl, hread⟩ | ⟨h₁, h₂, rfl, hread⟩ |
      ⟨h₁, h₂, h₃, rfl, hread⟩
    · rw [hread, run_bind_error (run_distanceTo_error hquery herror)]
      rfl
    · rw [hread, run_bind_ok (run_distanceTo hc (h.values_eq h₁)),
        run_bind_error (run_distanceTo_error hc₁.query_eq herror)]
      rfl
    · rw [hread, run_bind_ok (run_distanceTo hc (h.values_eq h₁)),
        run_bind_ok (run_distanceTo hc₁ (h.values_eq h₂)),
        run_bind_error (run_distanceTo_error hc₂.query_eq herror)]
      rfl
    · rw [hread, run_bind_ok (run_distanceTo hc (h.values_eq h₁)),
        run_bind_ok (run_distanceTo hc₁ (h.values_eq h₂)),
        run_bind_ok (run_distanceTo hc₂ (h.values_eq h₃)),
        run_bind_error (run_distanceTo_error hc₃.query_eq herror)]
      rfl

theorem lastBound_concat (events : List Event) (event : Event) :
    lastBound (events ++ [event]) = event.bound?.or (lastBound events) := by
  cases h : event.bound? <;> simp [lastBound, h]

theorem step_setQuery (c : Computer) (q : List Score) :
    Step s c (.setQuery q) (c.perform s (.setQuery q)) := by
  by_cases h : q.length = s.dimension
  · rw [perform, run_setQuery c h]
    exact ⟨rfl, .rebound q h, rfl, rfl, rfl⟩
  · rw [perform, run_setQuery_error c h]
    exact ⟨rfl, .misfit q h, rfl, rfl, rfl⟩

theorem step_distanceTo (h : s.Coherent) (c : Computer) (slot : Nat) :
    Step s c (.distanceTo slot) (c.perform s (.distanceTo slot)) := by
  cases hquery : c.query? with
  | none =>
    rw [perform, run_distanceTo_unset hquery]
    exact ⟨rfl, .unset slot hquery, rfl, rfl, rfl⟩
  | some q =>
    rcases Nat.lt_or_ge slot s.physical with hslot | hslot
    · have hstored := h.values_eq hslot
      rw [perform, run_distanceTo ⟨rfl, hquery⟩ hstored]
      exact ⟨rfl, .scored q slot _ hquery hslot hstored, rfl, rfl, rfl⟩
    · rw [perform, run_distanceTo_error hquery (Store.values_eq_error hslot)]
      exact ⟨rfl, .beyond q slot hquery hslot, rfl, rfl, rfl⟩

theorem step_distanceToFour (h : s.Coherent) (hcodec : s.codec.codeLength = s.dimension)
    (c : Computer) (hfits : ∀ q, c.query? = some q → q.length = s.dimension) (slots : Four Nat) :
    Step s c (.distanceToFour slots) (c.perform s (.distanceToFour slots)) := by
  cases hquery : c.query? with
  | none =>
    rw [perform, run_distanceToFour_unset hquery]
    exact ⟨rfl, .unsetFour slots hquery, rfl, rfl, rfl⟩
  | some q =>
    cases hfirst : slots.toList.find? (s.physical ≤ ·) with
    | none =>
      have hinside : ∀ slot ∈ slots.toList, slot < s.physical := by
        simpa using List.find?_eq_none.mp hfirst
      have hstored : slots.map s.values = (slots.map s.vectorAt).map .ok :=
        Four.map_congr fun slot hslot => h.values_eq (hinside slot hslot)
      have hlanes : c.adapter.scoreFour q (slots.map s.vectorAt) =
          (slots.map s.vectorAt).map (c.adapter.laneScore q) := by
        have hlength := hfits q hquery
        refine Adapter.scoreFour_eq (hlength ▸ h.dimension_pos) fun y hy => ?_
        rw [Four.toList_map] at hy
        obtain ⟨slot, hslot, rfl⟩ := List.mem_map.mp hy
        rw [hlength, ← hcodec, h.length_vectorAt (hinside slot hslot)]
      obtain ⟨ha, hb, hc, hd, -⟩ : _ ∧ _ ∧ _ ∧ _ ∧ _ := by
        simpa only [Four.toList, List.forall_mem_cons] using hinside
      rw [perform, run_distanceToFour ⟨rfl, hquery⟩ slots (slots.map s.vectorAt) (h.values_eq ha)
        (h.values_eq hb) (h.values_eq hc) (h.values_eq hd)]
      exact ⟨rfl, .scoredFour q slots _ hquery hinside hstored hlanes, rfl, rfl, rfl⟩
    | some slot =>
      rw [perform, run_distanceToFour_error h ⟨rfl, hquery⟩ hfirst]
      exact ⟨rfl, .beyondFour q slots slot hquery hfirst, rfl, rfl, rfl⟩

theorem step_symmetric (h : s.Coherent) (c : Computer) (i j : Nat) :
    Step s c (.symmetric i j) (c.perform s (.symmetric i j)) := by
  rw [perform, symmetric]
  rcases Nat.lt_or_ge j s.physical with hj | hj
  · rcases Nat.lt_or_ge i s.physical with hi | hi
    · have hx := h.values_eq hi
      have hy := h.values_eq hj
      rw [hx, hy]
      exact ⟨rfl, .paired i j _ _ hi hj hx hy, rfl, rfl, rfl⟩
    · rw [h.values_eq hj, Store.values_eq_error hi]
      exact ⟨rfl, .beyondLeft i j hj hi, rfl, rfl, rfl⟩
  · rw [Store.values_eq_error hj]
    exact ⟨rfl, .beyondRight i j hj, rfl, rfl, rfl⟩

theorem step (h : s.Coherent) (hcodec : s.codec.codeLength = s.dimension) (c : Computer)
    (hfits : ∀ q, c.query? = some q → q.length = s.dimension) (call : Call) :
    Step s c call (c.perform s call) := by
  cases call with
  | setQuery q => exact step_setQuery c q
  | distanceTo slot => exact step_distanceTo h c slot
  | distanceToFour slots => exact step_distanceToFour h hcodec c hfits slots
  | symmetric i j => exact step_symmetric h c i j

theorem Answers.fits {bound : Option (List Score)} {event : Event}
    (h : Answers s a bound event) (hq : event.bound? = some q) : q.length = s.dimension := by
  cases h with
  | rebound q' fits =>
    cases hq
    exact fits
  | _ => cases hq

/-- The score of two stored vectors is the one that the first has against the second as a query. -/
theorem symmetric_eq_run (h : s.Coherent) (hcodec : s.codec = .flat s.dimension) (c : Computer)
    (i : Nat) {j : Nat} {v : List Single} (hv : s.reconstructSlot j = .ok v) :
    symmetric s c.adapter i j =
      (c.run do setQuery s (v.map Single.value); distanceTo s i).1 := by
  obtain ⟨hj, hvector⟩ := h.eq_decode_of_reconstructSlot hv
  rw [hcodec] at hvector
  have hvector : v.map Single.value = s.vectorAt j := congrArg (List.map Single.value) hvector
  have hfits : (s.vectorAt j).length = s.dimension := by
    rw [h.length_vectorAt hj, hcodec]
    rfl
  rw [hvector, symmetric, h.values_eq hj]
  rcases Nat.lt_or_ge i s.physical with hi | hi
  · rw [run_setQuery_distanceTo h hfits hi, h.values_eq hi]
    rfl
  · rw [run_bind_ok (run_setQuery c hfits),
      run_distanceTo_error rfl (Store.values_eq_error hi), Store.values_eq_error hi]
    rfl

structure Follows (s : Store Single) (a : Adapter) (events : List Event) (c : Computer) : Prop where
  adapter_eq : c.adapter = a
  query_eq : c.query? = lastBound events
  evaluations_eq : c.evaluations = (events.map (Event.evaluations a s.physical)).sum
  fits : ∀ q, c.query? = some q → q.length = s.dimension

theorem Follows.step {past : List Event} {call : Call} {next : Event × Computer}
    (h : Follows s a past c) (hstep : Step s c call next) :
    Answers s a (lastBound past) next.1 ∧ Follows s a (past ++ [next.1]) next.2 := by
  have hanswers := hstep.answers
  rw [h.adapter_eq, h.query_eq] at hanswers
  refine ⟨hanswers, ⟨hstep.adapter_eq.trans h.adapter_eq, ?_, ?_, fun q hq => ?_⟩⟩
  · rw [hstep.query_eq, h.query_eq, lastBound_concat]
  · rw [hstep.evaluations_eq, h.adapter_eq, h.evaluations_eq]
    simp
  · rw [hstep.query_eq] at hq
    rcases Option.or_eq_some_iff.mp hq with hq | ⟨-, hq⟩
    · exact hanswers.fits hq
    · exact h.fits q hq

theorem Follows.history (hs : s.Coherent) (hcodec : s.codec.codeLength = s.dimension)
    {past : List Event} (h : Follows s a past c) (calls : List Call) :
    let events := (c.history s calls).1
    events.map Event.call = calls ∧
      (∀ before event after, events = before ++ event :: after →
        Answers s a (lastBound (past ++ before)) event) ∧
      Follows s a (past ++ events) (c.history s calls).2 := by
  -- a call is judged by everything that was answered before it, so the past grows with the run
  induction calls generalizing c past with
  | nil =>
    refine ⟨rfl, fun before event after hsplit => ?_, ?_⟩
    · cases before <;> cases hsplit
    · simpa [Computer.history] using h
  | cons call calls ih =>
    have hstep := Computer.step hs hcodec c h.fits call
    obtain ⟨hfirst, hnext⟩ := h.step hstep
    obtain ⟨hcalls, hanswers, hlast⟩ := ih hnext
    rw [List.append_assoc] at hlast
    rw [history_cons]
    refine ⟨congrArg₂ List.cons hstep.call_eq hcalls, fun before event after hsplit => ?_, hlast⟩
    rcases List.cons_eq_append_iff.mp hsplit with ⟨rfl, hsplit⟩ | ⟨before', rfl, hsplit⟩
    · cases hsplit
      rwa [List.append_nil]
    · have hanswer := hanswers before' event after (List.cons.inj hsplit).2
      rwa [List.append_assoc] at hanswer

/-- Any calls in any order, on any stored vectors. A call is answered as the query that was bound
last requires, and every evaluation is one of an answered call or one that a refused batch of single
scores has made before. A symmetric score needs none of this, and is the score that one slot has
against the vector of the other. -/
theorem history_exact {memory : Memory} {dimension : Nat} {metric : Metric} {s₀ : Store Single}
    (hnew : Store.new memory (.flat dimension) metric = .ok s₀) (stored : List Store.Call)
    (a : Adapter) :
    let s := s₀.run stored
    s.dimension = dimension ∧
    (∀ calls : List Call,
      let events := (Computer.history s { adapter := a } calls).1
      let c := (Computer.history s { adapter := a } calls).2
      events.map Event.call = calls ∧
      (∀ before event after, events = before ++ event :: after →
        Answers s a (lastBound before) event) ∧
      c.adapter = a ∧ c.query? = lastBound events ∧
      c.evaluations = (events.map (Event.evaluations a s.physical)).sum) ∧
    (∀ (c : Computer) i j, c.adapter = a →
      c.perform s (.symmetric i j) = (.symmetric i j (symmetric s a i j), c)) ∧
    ∀ (c : Computer) i j v, c.adapter = a → s.reconstructSlot j = .ok v →
      symmetric s a i j = (c.run do setQuery s (v.map Single.value); distanceTo s i).1 := by
  intro s
  have h₀ := Store.coherent_of_new hnew
  obtain ⟨rfl, -, -⟩ := Store.eq_of_new hnew
  obtain ⟨hs, hcodec⟩ := h₀.run stored
  have hdimension : s.dimension = dimension := congrArg Codec.dimension hcodec
  have hflat : s.codec = .flat s.dimension := hdimension ▸ hcodec
  have hwidth : s.codec.codeLength = s.dimension := congrArg Codec.codeLength hflat
  refine ⟨hdimension, fun calls => ?_, fun c i j hc => ?_, fun c i j v hc hv => ?_⟩
  · have hfresh : Follows s a [] { adapter := a } := ⟨rfl, rfl, rfl, fun q hq => by cases hq⟩
    obtain ⟨hcalls, hanswers, hlast⟩ := hfresh.history hs hwidth calls
    exact ⟨hcalls, hanswers, hlast.adapter_eq, hlast.query_eq, hlast.evaluations_eq⟩
  · rw [perform, hc]
  · rw [← hc]
    exact symmetric_eq_run hs hflat c i hv

/-- Nothing is bound yet when slot 9 is asked for, and the query that does not fit leaves the first
one bound. Of the four slots two are scored before slot 7 is refused. Slot 1 is dead. -/
theorem history_exact_halfway :
    let one : Single := ⟨0x3f800000⟩
    let two : Single := ⟨0x40000000⟩
    let q := [one.value]
    let calls : List Call :=
      [.distanceTo 9, .setQuery q, .setQuery [], .distanceToFour ⟨0, 1, 7, 0⟩, .distanceTo 1,
        .symmetric 5 8]
    ∃ s₀, Store.new .host (.flat 1) .l2 = .ok s₀ ∧
      let s := s₀.run [.add [one, two], .delete [1]]
      let events := (history s { adapter := .plain .l1 } calls).1
      let c := (history s { adapter := .plain .l1 } calls).2
      events.map Event.call = calls ∧
        events.head? = some (.distanceTo 9 (.error .queryNotSet)) ∧
        c.query? = some q ∧ c.evaluations = 3 ∧
        s.reconstructSlot 1 = .ok [two] ∧
        symmetric s (.plain .l1) 0 1 = (c.run do setQuery s [two.value]; distanceTo s 0).1 := by
  intro one two q calls
  have hnew : Store.new .host (.flat 1) .l2 =
      .ok { memory := .host, codec := .flat 1, metric := .l2 } := rfl
  refine ⟨_, hnew, ?_⟩
  intro s events c
  obtain ⟨-, hhistory, -, hpaired⟩ :=
    history_exact hnew [.add [one, two], .delete [1]] (.plain .l1)
  obtain ⟨hcalls, hanswers, hadapter, hquery, hevaluations⟩ := hhistory calls
  have hcode : (s.reconstructSlot 1).toOption = some [two] := by decide +kernel
  cases hvector : s.reconstructSlot 1 with
  | error e =>
    rw [hvector] at hcode
    cases hcode
  | ok v =>
    rw [hvector] at hcode
    cases hcode
    have hhead : events.head? = some (.distanceTo 9 (.error .queryNotSet)) := by
      obtain ⟨first, rest, hsplit, hcall, -⟩ := List.map_eq_cons_iff.mp hcalls
      have hfirst := hanswers [] first rest hsplit
      have hevents : events = first :: rest := hsplit
      rw [hevents]
      cases hfirst with
      | unset slot =>
        cases hcall
        rfl
      | scored _ _ _ query => cases query
      | beyond _ _ query => cases query
      | _ => cases hcall
    exact ⟨hcalls, hhead, hquery.trans (by decide +kernel), hevaluations.trans (by decide +kernel),
      rfl, hpaired c 0 1 [two] hadapter hvector⟩

end ExactNeighbors.Computer
