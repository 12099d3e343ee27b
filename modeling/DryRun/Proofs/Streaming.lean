import DryRun.Machine
import DryRun.Number.Double
import DryRun.Proofs.Line

/-!
# Events on demand

A stream of events evaluates the lines of its program only as far as events are asked for.
This module compares it with the evaluation line by line, which knows no stream:
`Machine.eventsOf` joins the events of all lines, and `EventStream.pull` asks a stream for
the next event a number of times, whether there is one or not.

After `k` requests a stream has evaluated the **shortest** beginning of its program that has
`k` events (`Machine.Shortest`), and the events of these lines but the first `k` are pending
(`EventStream.after`). One request leads from one such state to the next.

## Main results

* `EventStream.next_after`: the answer to one request and the stream after it.
* `EventStream.pull_events`: the answers to any number of requests and the machine that they
  leave behind.
-/

namespace DryRun

variable {α : Type} [Scalar α]

namespace Machine

@[simp] theorem runLines_nil (m : Machine α) : m.runLines [] = m := rfl

@[simp] theorem runLines_cons (m : Machine α) (line : String) (lines : List String) :
    m.runLines (line :: lines) = (m.runLine line).runLines lines := rfl

/-- Programs run one after the other. -/
theorem runLines_append (m : Machine α) (lines lines' : List String) :
    m.runLines (lines ++ lines') = (m.runLines lines).runLines lines' :=
  List.foldl_append

/-- The events of the lines of a program, in order, evaluated one line after the other. -/
def eventsOf (m : Machine α) : List String → List (Event α)
  | [] => []
  | line :: rest => (m.evaluateLine line).result.events ++ (m.runLine line).eventsOf rest

@[simp] theorem eventsOf_nil (m : Machine α) : m.eventsOf [] = [] := rfl

theorem eventsOf_cons (m : Machine α) (line : String) (lines : List String) :
    m.eventsOf (line :: lines) =
      (m.evaluateLine line).result.events ++ (m.runLine line).eventsOf lines := rfl

/-- The events of programs that run one after the other. -/
theorem eventsOf_append (m : Machine α) (lines lines' : List String) :
    m.eventsOf (lines ++ lines') = m.eventsOf lines ++ (m.runLines lines).eventsOf lines' := by
  induction lines generalizing m with
  | nil => rfl
  | cons line lines ih =>
      rw [List.cons_append, eventsOf_cons, eventsOf_cons, ih, List.append_assoc, runLines_cons]

/-- A line has at most two events: a return to a reference position passes through the named
point, and every other motion is one move. -/
theorem length_events_le (m : Machine α) (line : String) :
    (m.evaluateLine line).result.events.length ≤ 2 := by
  have hstep := State.step_stepped m.config (m.state.prepare (Block.parse line))
    (Block.parse line)
  change ((m.state.prepare (Block.parse line)).step m.config (Block.parse line)).events.length ≤ 2
  generalize (m.state.prepare (Block.parse line)).step m.config (Block.parse line) = o at hstep
  cases hstep with
  | action a notes ha => exact Nat.zero_le 2
  | motion motion p ha hm hp =>
      change p.events.length ≤ 2
      rw [hp.length_events, State.length_legs]
      split <;> decide
  | skipped code notes ha hm => exact Nat.zero_le 2
  | nothing notes ha hm => exact Nat.zero_le 2

/-- A program has at most twice as many events as lines. -/
theorem length_eventsOf_le (m : Machine α) (lines : List String) :
    (m.eventsOf lines).length ≤ 2 * lines.length := by
  induction lines generalizing m with
  | nil => exact Nat.le_refl 0
  | cons line lines ih =>
      have hline := m.length_events_le line
      have hrest := ih (m.runLine line)
      rw [eventsOf_cons, List.length_append, List.length_cons]
      omega

/-- What is noted about programs that run one after the other. -/
theorem notesOf_append (m : Machine α) (lines lines' : List String) :
    m.notesOf (lines ++ lines') = m.notesOf lines ++ (m.runLines lines).notesOf lines' := by
  induction lines generalizing m with
  | nil => rfl
  | cons line lines ih =>
      rw [List.cons_append, notesOf, notesOf, ih, List.append_assoc, runLines_cons]

/-- The lines that have to be evaluated for `k` events: the shortest beginning of a program
that has so many, or all of it if it has fewer. -/
structure Shortest (m : Machine α) (k : Nat) (ran rest : List String) : Prop where
  enough : k ≤ (m.eventsOf ran).length ∨ rest = []
  least : ∀ n < ran.length, (m.eventsOf (ran.take n)).length < k

end Machine

namespace EventStream

/-- Asks for the next event `k` times, whether there is one or not. -/
def pull : Nat → EventStream α → List (Option (Event α)) × EventStream α
  | 0, s => ([], s)
  | k + 1, s => (s.next.1 :: (pull k s.next.2).1, (pull k s.next.2).2)

/-- A stream that has evaluated some lines of its program and given the first `k` of their
events. -/
def after (m : Machine α) (k : Nat) (ran rest : List String) : EventStream α :=
  ⟨m.runLines ran, (m.eventsOf ran).drop k, rest, m.notesOf ran⟩

/-! ### One request -/

/-- Looking for events evaluates the lines up to the first one that has any, and all of them
if there is none. -/
theorem advance_eq (m : Machine α) (notes : List (Note α)) (lines : List String) :
    ∃ ran rest, lines = ran ++ rest ∧
      advance m notes lines = ⟨m.runLines ran, m.eventsOf ran, rest, notes ++ m.notesOf ran⟩ ∧
      (m.eventsOf ran ≠ [] ∨ rest = []) ∧ ∀ n < ran.length, m.eventsOf (ran.take n) = [] := by
  induction lines generalizing m notes with
  | nil => exact ⟨[], [], rfl, by simp [advance, Machine.notesOf], .inr rfl, by simp⟩
  | cons line lines ih =>
      simp only [advance]
      split
      · next hnil =>
          -- the line has nothing to give: what the others lead to is found one line later
          obtain ⟨ran, rest, rfl, heq, hfound, hleast⟩ :=
            ih (m.runLine line) (notes ++ (m.evaluateLine line).notes)
          have hevents (ran : List String) :
              m.eventsOf (line :: ran) = (m.runLine line).eventsOf ran := by
            rw [Machine.eventsOf_cons, hnil, List.nil_append]
          refine ⟨line :: ran, rest, rfl, ?_, ?_, ?_⟩
          · rw [hevents, Machine.notesOf, ← List.append_assoc]
            exact heq
          · rw [hevents]
            exact hfound
          · rintro (_ | n) hn
            · rfl
            · rw [List.take_succ_cons, hevents]
              exact hleast n (Nat.lt_of_succ_lt_succ hn)
      · next hsome =>
          have hevents : m.eventsOf [line] = (m.evaluateLine line).result.events :=
            List.append_nil _
          refine ⟨[line], lines, rfl, ?_, .inl ?_, ?_⟩
          · rw [hevents, Machine.notesOf, Machine.notesOf, List.append_nil]
            rfl
          · rw [hevents]
            exact hsome
          · intro n hn
            obtain rfl : n = 0 := Nat.lt_one_iff.1 hn
            rfl

variable {m : Machine α} {ran rest : List String} {k : Nat}

/-- If an event is pending, a request is answered by it and evaluates no line. -/
theorem next_after_of_lt (h : m.Shortest k ran rest) (hk : k < (m.eventsOf ran).length) :
    (after m k ran rest).next =
        ((m.eventsOf (ran ++ rest))[k]?, after m (k + 1) ran rest) ∧
      m.Shortest (k + 1) ran rest := by
  have hpending : (after m k ran rest).pending ≠ [] := by
    rw [after, ne_eq, List.drop_eq_nil_iff]
    exact Nat.not_le_of_lt hk
  have hnext : (after m k ran rest).next = ((after m k ran rest).pending.head?,
      { after m k ran rest with pending := (after m k ran rest).pending.tail }) := by
    simp [next, hpending]
  constructor
  · rw [hnext, Machine.eventsOf_append, List.getElem?_append_left hk]
    simp [after]
  · refine ⟨.inl hk, ?_⟩
    intro n hn
    exact Nat.lt_succ_of_lt (h.least n hn)

/-- If no event is pending, a request evaluates the lines up to the next one with events. -/
theorem next_after_of_le (h : m.Shortest k ran rest) (hk : (m.eventsOf ran).length ≤ k) :
    ∃ more rest', rest = more ++ rest' ∧
      (after m k ran rest).next =
        ((m.eventsOf (ran ++ rest))[k]?, after m (k + 1) (ran ++ more) rest') ∧
      m.Shortest (k + 1) (ran ++ more) rest' := by
  obtain ⟨more, rest', rfl, heq, hfound, hleast⟩ :=
    advance_eq (m.runLines ran) (m.notesOf ran) rest
  have hpending : (m.eventsOf ran).drop k = [] := List.drop_eq_nil_of_le hk
  have hnext : (after m k ran (more ++ rest')).next =
      (((m.runLines ran).eventsOf more).head?,
        ⟨m.runLines (ran ++ more), ((m.runLines ran).eventsOf more).tail, rest',
          m.notesOf (ran ++ more)⟩) := by
    simp [next, after, hpending, heq, Machine.runLines_append, Machine.notesOf_append]
  rcases h.enough.imp (Nat.le_antisymm hk) List.append_eq_nil_iff.1 with hcount | ⟨rfl, rfl⟩
  · -- all events of the evaluated lines were given: the next one is the first of a new line
    refine ⟨more, rest', rfl, ?_, ?_, ?_⟩
    · have hhead : (m.eventsOf (ran ++ (more ++ rest')))[k]? =
          ((m.runLines ran).eventsOf more).head? := by
        rw [Machine.eventsOf_append, List.getElem?_append_right hk, hcount, Nat.sub_self,
          ← List.head?_eq_getElem?, Machine.eventsOf_append]
        rcases hfound with hsome | rfl
        · obtain ⟨e, events, he⟩ := List.exists_cons_of_ne_nil hsome
          rw [he, List.cons_append, List.head?_cons, List.head?_cons]
        · rw [Machine.eventsOf_nil, List.append_nil]
      have htail : (m.eventsOf (ran ++ more)).drop (k + 1) =
          ((m.runLines ran).eventsOf more).tail := by
        rw [Machine.eventsOf_append, ← hcount, List.drop_length_add_append, List.drop_one]
      rw [hnext, hhead, after, htail]
    · rcases hfound with hsome | hnil
      · left
        have hpos := List.length_pos_iff.2 hsome
        rw [Machine.eventsOf_append, List.length_append]
        omega
      · exact .inr hnil
    · intro n hn
      rw [List.length_append] at hn
      rcases Nat.lt_or_ge n ran.length with hlt | hge
      · rw [List.take_append_of_le_length (Nat.le_of_lt hlt)]
        exact Nat.lt_succ_of_lt (h.least n hlt)
      · have hnone := hleast (n - ran.length) (by omega)
        rw [List.take_append, List.take_of_length_le hge, Machine.eventsOf_append, hnone,
          List.append_nil]
        exact Nat.lt_succ_of_le hk
  · -- there is nothing left to evaluate, and so nothing to give
    refine ⟨[], [], rfl, ?_, ?_, ?_⟩
    · rw [hnext, after, List.append_nil, List.append_nil, List.append_nil,
        List.getElem?_eq_none hk, List.drop_eq_nil_of_le (Nat.le_succ_of_le hk)]
      rfl
    · exact .inr rfl
    · intro n hn
      rw [List.append_nil] at hn ⊢
      exact Nat.lt_succ_of_lt (h.least n hn)

/-- **One request** gives the next event of the program, if there is one, and evaluates as many
lines as it has to. -/
theorem next_after (h : m.Shortest k ran rest) :
    ∃ more rest', rest = more ++ rest' ∧
      (after m k ran rest).next =
        ((m.eventsOf (ran ++ rest))[k]?, after m (k + 1) (ran ++ more) rest') ∧
      m.Shortest (k + 1) (ran ++ more) rest' := by
  rcases Nat.lt_or_ge k (m.eventsOf ran).length with hlt | hge
  · refine ⟨[], rest, rfl, ?_⟩
    rw [List.append_nil]
    exact next_after_of_lt h hlt
  · exact next_after_of_le h hge

/-! ### Many requests -/

/-- Any number of requests gives the next events of the program, one each, and evaluates as
many lines as it has to. -/
theorem pull_after (j : Nat) (h : m.Shortest k ran rest) :
    ∃ more rest', rest = more ++ rest' ∧
      (after m k ran rest).pull j =
        ((List.range' k j).map fun i => (m.eventsOf (ran ++ rest))[i]?,
          after m (k + j) (ran ++ more) rest') ∧
      m.Shortest (k + j) (ran ++ more) rest' := by
  induction j generalizing k ran rest with
  | zero => exact ⟨[], rest, rfl, by simp [pull], by simpa using h⟩
  | succ j ih =>
      obtain ⟨more, rest', rfl, hnext, hshort⟩ := next_after h
      obtain ⟨more', rest'', rfl, hpull, hshort'⟩ := ih hshort
      refine ⟨more ++ more', rest'', (List.append_assoc ..).symm, ?_, ?_⟩
      · rw [pull, hnext, hpull, List.range'_succ, List.map_cons, List.append_assoc ran,
          List.append_assoc ran, Nat.add_right_comm, Nat.add_assoc k j 1]
      · rwa [List.append_assoc, Nat.add_right_comm, Nat.add_assoc] at hshort'

/-- A stream without events and lines answers every request with nothing. -/
theorem pull_of_exhausted (m : Machine α) (notes : List (Note α)) (k : Nat) :
    pull k ⟨m, [], [], notes⟩ = (List.replicate k none, ⟨m, [], [], notes⟩) := by
  induction k with
  | zero => rfl
  | succ k ih =>
      have hnext : next ⟨m, [], [], notes⟩ = (none, ⟨m, [], [], notes⟩) := rfl
      rw [pull, hnext, ih, List.replicate_succ]

/-- A stream that has no event to give has evaluated all of its lines. -/
theorem next_eq_none {s : EventStream α} (h : s.next.1 = none) :
    s.next.2.pending = [] ∧ s.next.2.lines = [] := by
  cases hpending : s.pending with
  | cons e pending => simp [next, hpending] at h
  | nil =>
      obtain ⟨ran, rest, -, heq, hfound, -⟩ := advance_eq s.machine s.notes s.lines
      simp only [next, hpending, List.isEmpty_nil, if_true, heq, List.head?_eq_none_iff] at h ⊢
      rcases hfound with hsome | hnil
      · exact absurd h hsome
      · exact ⟨by rw [h, List.tail_nil], hnil⟩

/-- Asking until there is no event gives the events that as many requests give, and leaves the
same stream behind. -/
theorem take_eq_pull (k : Nat) (s : EventStream α) :
    (s.take k).1.map (fun x => some x.1) = (s.pull k).1.filter Option.isSome ∧
      (s.take k).2 = (s.pull k).2 := by
  induction k generalizing s with
  | zero => exact ⟨rfl, rfl⟩
  | succ k ih =>
      rw [take, pull]
      split
      · next event s' hnext =>
          rw [hnext]
          obtain ⟨hevents, hs⟩ := ih s'
          refine ⟨?_, hs⟩
          rw [List.map_cons, hevents, List.filter_cons_of_pos rfl]
      · next s' hnext =>
          obtain ⟨hpending, hlines⟩ := next_eq_none (congrArg Prod.fst hnext)
          rw [hnext] at hpending hlines ⊢
          obtain ⟨m, pending, lines, notes⟩ := s'
          obtain rfl : pending = [] := hpending
          obtain rfl : lines = [] := hlines
          rw [pull_of_exhausted]
          simp

/-- The answers to `k` requests for the entries of a list, less those that are nothing. -/
theorem filter_isSome_getElem? {β : Type} (events : List β) (k : Nat) :
    ((List.range k).map fun i => events[i]?).filter Option.isSome = (events.take k).map some := by
  induction k with
  | zero => rfl
  | succ k ih =>
      rw [List.range_succ, List.map_append, List.filter_append, ih, List.take_add_one,
        List.map_append]
      congr 1
      cases h : events[k]? <;> simp [h]

/-- The stream of a program's events after `k` requests, and their answers. -/
theorem pull_of (m : Machine α) (lines : List String) (k : Nat) :
    ∃ ran rest, lines = ran ++ rest ∧ m.Shortest k ran rest ∧
      (of m lines).pull k =
        ((List.range k).map (fun i => (m.eventsOf lines)[i]?), after m k ran rest) := by
  have hstart : m.Shortest 0 [] lines := ⟨.inl (Nat.zero_le _), by simp⟩
  obtain ⟨ran, rest, hlines, hpull, hshort⟩ := pull_after k hstart
  rw [Nat.zero_add] at hpull hshort
  refine ⟨ran, rest, hlines, hshort, ?_⟩
  rw [List.range_eq_range']
  exact hpull

/-- Once a request was answered by nothing, the whole program was evaluated. -/
theorem machine_pull_of_none {m : Machine α} {lines : List String} {k : Nat}
    (h : none ∈ ((of m lines).pull k).1) : ((of m lines).pull k).2.machine = m.runLines lines := by
  obtain ⟨ran, rest, rfl, hshort, hpull⟩ := pull_of m lines k
  rw [hpull] at h ⊢
  obtain ⟨i, hi, hnone⟩ := List.mem_map.1 h
  have hlength := List.getElem?_eq_none_iff.1 hnone
  rw [List.mem_range] at hi
  rw [Machine.eventsOf_append, List.length_append] at hlength
  rcases hshort.enough with hk | rfl
  · omega
  · rw [List.append_nil]
    rfl

/-- Asking for up to `k` events gives the first `k` events of the program. -/
theorem take_events (m : Machine α) (lines : List String) (k : Nat) :
    ((of m lines).take k).1.map Prod.fst = (m.eventsOf lines).take k := by
  obtain ⟨ran, rest, -, -, hpull⟩ := pull_of m lines k
  have htake := (take_eq_pull k (of m lines)).1
  rw [hpull, filter_isSome_getElem?] at htake
  refine (List.map_inj_right fun _ _ => Option.some.inj).1 ?_
  rwa [List.map_map]

/-- However many events are asked for, the first lines of the program were run and no others. -/
theorem machine_take (m : Machine α) (lines : List String) (k : Nat) :
    ∃ ran rest, lines = ran ++ rest ∧ ((of m lines).take k).2.machine = m.runLines ran := by
  obtain ⟨ran, rest, hlines, -, hpull⟩ := pull_of m lines k
  refine ⟨ran, rest, hlines, ?_⟩
  rw [(take_eq_pull k (of m lines)).2, hpull]
  rfl

/-- One request more than there are events is answered by nothing. -/
theorem pull_length_succ (m : Machine α) (lines : List String) :
    ((of m lines).pull ((m.eventsOf lines).length + 1)).1 =
      (m.eventsOf lines).map some ++ [none] := by
  obtain ⟨ran, rest, -, -, hpull⟩ := pull_of m lines ((m.eventsOf lines).length + 1)
  have hall : (List.range (m.eventsOf lines).length).map (fun i => (m.eventsOf lines)[i]?) =
      (m.eventsOf lines).map some :=
    List.ext_getElem (by simp) fun i _ _ => by simp
  rw [hpull, List.range_succ, List.map_append, hall, List.map_singleton,
    List.getElem?_eq_none (Nat.le_refl _)]

/-- **A stream of events agrees with the evaluation line by line.** Of `k` requests, the one
with index `i` is answered by the event with index `i` among the events of all lines, and by
nothing if there are not so many. The machine is then the one after the shortest beginning of
the program that has `k` events. Asking until the answer is nothing gives all events and
leaves the machine as the program does. -/
theorem pull_events (m : Machine α) (lines : List String) (k : Nat) :
    ((of m lines).pull k).1 = (List.range k).map (fun i => (m.eventsOf lines)[i]?) ∧
      (∃ ran rest, lines = ran ++ rest ∧ m.Shortest k ran rest ∧
        ((of m lines).pull k).2.machine = m.runLines ran) ∧
      ((of m lines).pull ((m.eventsOf lines).length + 1)).1 =
        (m.eventsOf lines).map some ++ [none] ∧
      ((of m lines).pull ((m.eventsOf lines).length + 1)).2.machine = m.runLines lines ∧
      (of m lines).takeAll.1.map Prod.fst = m.eventsOf lines ∧
      (of m lines).takeAll.2.machine = m.runLines lines := by
  obtain ⟨ran, rest, hlines, hshort, hpull⟩ := pull_of m lines k
  have hend := pull_length_succ m lines
  have hlength := m.length_eventsOf_le lines
  have hall : (of m lines).takeAll = (of m lines).take (2 * lines.length + 1) := by
    rw [takeAll]
    congr 1
    exact congrArg (· + 1) (Nat.zero_add _)
  refine ⟨by rw [hpull], ⟨ran, rest, hlines, hshort, by rw [hpull]; rfl⟩, hend, ?_, ?_, ?_⟩
  · exact machine_pull_of_none (by rw [hend]; simp)
  · rw [hall, take_events, List.take_of_length_le (Nat.le_succ_of_le hlength)]
  · rw [hall, (take_eq_pull _ _).2]
    obtain ⟨ran, rest, -, -, hpull⟩ := pull_of m lines (2 * lines.length + 1)
    refine machine_pull_of_none ?_
    rw [hpull]
    refine List.mem_map.2 ⟨2 * lines.length, List.mem_range.2 (Nat.lt_succ_self _), ?_⟩
    exact List.getElem?_eq_none hlength

-- A stream that is left between the two events of a return has evaluated only its line.
example :
    ((of ⟨.standard, .start .standard⟩ ["M8", "G28 X1", "M9", "X2"] : EventStream Float).pull
      1).2.machine.state.catalogue.lines = 2 := by
  decide +kernel

end EventStream

end DryRun
