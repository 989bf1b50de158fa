import ImportPlan.Proofs.Plan.Run

namespace ImportPlan

/-!
# Schedules

Workers may take turns in any order: every document gets the plan that it gets alone. A worker
carries with it what its planning will come to, and no step of any worker changes that.

* `Worker.outcome` — what a worker comes to if it goes on alone; `Worker.outcome_step` — a step
  changes nothing about it but that its first event may move to the log.
* `Worker.turnsLeft` — the number of steps that a worker may still need.
* `Pool.outcomes` — what the workers have written with what is to come;
  `Pool.outcomes_step`, `Pool.outcomes_run` — no schedule changes it.
* `Pool.turnsLeft_run` — every turn brings a worker closer to its result.
* `Pool.perm_flatMap_eventsOf` — the log is a shuffle of what the workers have written.
* `Pool.results_eq_of_isSome`, `Pool.eventsOf_run_eq` — what results and events are, once there are
  results.
* `Pool.planAll_of_schedule` — planning in a pool is planning one document after the other.
-/

variable (c : Config) (rendering : Rendering)

/-! ### One worker -/

/-- What the planning of a document comes to from a stage on. -/
def Stage.outcome (c : Config) (rendering : Rendering) (d : Document) : Stage → FilePlan
  | .started => c.plan rendering d
  | .rendering s steps => (FilePlan.ofSession d (s.after steps)).after (s.events steps)
  | .finished block => ⟨block, []⟩

/-- What a stage comes to is reported from here on, or comes from the next stage. -/
theorem Stage.outcome_eq_next (d : Document) (stage : Stage) :
    stage.outcome c rendering d =
      ((stage.next c rendering d).1.outcome c rendering d).after (stage.next c rendering d).2 := by
  cases stage with
  | started =>
    rcases h : c.session.registerDocument c.features d with ⟨misuse | s, events⟩
    · have hplan : c.plan rendering d = ⟨.error misuse, events⟩ := by rw [Config.plan, h]
      rw [outcome, hplan, next, h]
      show FilePlan.mk _ events = FilePlan.mk _ (events ++ [])
      rw [List.append_nil]
      rfl
    · rw [outcome, Config.plan_of_registerDocument c rendering d h, FilePlan.after_append, next, h]
      rfl
  | rendering s steps =>
    cases steps with
    | nil =>
      show FilePlan.ofSession d s = FilePlan.mk _ ((FilePlan.ofSession d s).events ++ [])
      rw [List.append_nil]
      rfl
    | cons p steps =>
      rw [outcome, Session.events_cons, Session.after_cons, FilePlan.after_append]
      rfl
  | finished block => rfl

/-- The steps that a stage may be away from the last one. -/
def Stage.stepsLeft (rendering : Rendering) (d : Document) : Stage → Nat
  | .started => (rendering d).length + 2
  | .rendering _ steps => steps.length + 1
  | .finished _ => 0

/-- The next stage is closer to the last one, if that is not reached. -/
theorem Stage.stepsLeft_next (d : Document) (stage : Stage) :
    (∃ block, stage = .finished block) ∨
      (stage.next c rendering d).1.stepsLeft rendering d < stage.stepsLeft rendering d := by
  cases stage with
  | started =>
    refine .inr ?_
    rcases h : c.session.registerDocument c.features d with ⟨misuse | s, events⟩
    · rw [next, h]
      exact Nat.succ_pos _
    · rw [next, h]
      exact Nat.lt_succ_self _
  | rendering s steps => cases steps <;> exact .inr (Nat.lt_succ_self _)
  | finished block => exact .inl ⟨block, rfl⟩

namespace Worker

/-- What a worker comes to if it goes on alone. -/
def outcome (c : Config) (rendering : Rendering) (w : Worker) : FilePlan :=
  (w.stage.outcome c rendering w.document).after w.unwritten

/-- A step leaves the outcome as it is, but for the event that it writes. -/
theorem outcome_step (w : Worker) :
    ((w.step c rendering).1.outcome c rendering).after (w.step c rendering).2.toList =
      w.outcome c rendering := by
  obtain ⟨d, stage, unwritten⟩ := w
  cases unwritten with
  | nil => exact (stage.outcome_eq_next c rendering d).symm
  | cons e rest => rfl

/-- The number of steps that a worker may still need. -/
def turnsLeft (c : Config) (rendering : Rendering) (w : Worker) : Nat :=
  w.stage.stepsLeft rendering w.document + (w.outcome c rendering).events.length

/-- Every step brings a worker closer to its result. -/
theorem turnsLeft_step (w : Worker) :
    (w.step c rendering).1.turnsLeft c rendering ≤ w.turnsLeft c rendering - 1 := by
  obtain ⟨d, stage, unwritten⟩ := w
  cases unwritten with
  | cons e rest =>
    -- one event less is left to write
    show _ + (rest ++ _).length ≤ _ + (e :: rest ++ _).length - 1
    rw [List.cons_append, List.length_cons]
    exact Nat.le_refl _
  | nil =>
    have houtcome : ((mk d stage []).step c rendering).1.outcome c rendering =
        (mk d stage []).outcome c rendering := outcome_step c rendering (mk d stage [])
    rw [turnsLeft, turnsLeft, houtcome]
    rcases stage.stepsLeft_next c rendering d with ⟨block, rfl⟩ | hcloser
    · exact Nat.le_refl _
    · show (stage.next c rendering d).1.stepsLeft rendering d + _ ≤
        stage.stepsLeft rendering d + _ - 1
      omega

/-- A worker without turns left has its result. -/
theorem result?_of_turnsLeft {w : Worker} (h : w.turnsLeft c rendering = 0) :
    w.result? = some (w.outcome c rendering).block := by
  obtain ⟨d, stage, unwritten⟩ := w
  have hparts := Nat.add_eq_zero_iff.1 h
  cases stage with
  | started => exact absurd hparts.1 (Nat.succ_ne_zero _)
  | rendering s steps => exact absurd hparts.1 (Nat.succ_ne_zero _)
  | finished block =>
    have hwritten : unwritten ++ [] = [] := List.length_eq_zero_iff.1 hparts.2
    rw [List.append_nil] at hwritten
    rw [hwritten]
    rfl

/-- A worker with a result has come to it and has written everything. -/
theorem outcome_of_result? {w : Worker} {block : Except Misuse Block}
    (h : w.result? = some block) : w.outcome c rendering = ⟨block, []⟩ := by
  rw [result?] at h
  split at h
  · next hstage hunwritten =>
    cases h
    rw [outcome, hstage, hunwritten]
    rfl
  · cases h

end Worker

/-! ### The pool -/

namespace Pool

/-- What the workers of a pool have written with what they will come to. -/
def outcomes (c : Config) (rendering : Rendering) (p : Pool) : List FilePlan :=
  p.workers.mapIdx fun i w => (w.outcome c rendering).after (p.eventsOf i)

/-- A step of a pool is a step of the worker at its place, if there is one. -/
theorem step_eq {p : Pool} {i : Nat} {w : Worker} (h : p.workers[i]? = some w) :
    p.step c rendering i =
      ⟨p.workers.set i (w.step c rendering).1,
        p.log ++ (w.step c rendering).2.toList.map (i, ·)⟩ := by
  rw [step, h]

theorem step_of_none {p : Pool} {i : Nat} (h : p.workers[i]? = none) :
    p.step c rendering i = p := by
  rw [step, h]

/-- What a worker writes counts for itself and for nobody else. -/
theorem eventsOf_append (workers workers' : List Worker) (log : List (Nat × Event)) (i j : Nat)
    (events : List Event) :
    (mk workers' (log ++ events.map (i, ·))).eventsOf j =
      (mk workers log).eventsOf j ++ if i = j then events else [] := by
  rw [eventsOf, List.filter_append, List.map_append, List.filter_map, List.map_map]
  by_cases h : i = j
  · simp [eventsOf, h, Function.comp_def]
  · simp [eventsOf, h, Function.comp_def]

/-- **No step changes what the planning comes to.** -/
theorem outcomes_step (p : Pool) (i : Nat) :
    (p.step c rendering i).outcomes c rendering = p.outcomes c rendering := by
  cases hw : p.workers[i]? with
  | none => rw [step_of_none c rendering hw]
  | some w =>
    rw [step_eq c rendering hw]
    have hlt : i < p.workers.length := (List.getElem?_eq_some_iff.1 hw).1
    refine List.ext_getElem? fun j => ?_
    rw [outcomes, outcomes, List.getElem?_mapIdx, List.getElem?_mapIdx]
    by_cases hij : i = j
    · -- what the worker writes was to come before
      subst hij
      rw [List.getElem?_set_self hlt, hw, eventsOf_append p.workers, if_pos rfl]
      show some (((w.step c rendering).1.outcome c rendering).after (p.eventsOf i ++ _)) =
        some ((w.outcome c rendering).after (p.eventsOf i))
      rw [FilePlan.after_append, w.outcome_step c rendering]
    · rw [List.getElem?_set_ne hij, eventsOf_append p.workers, if_neg hij, List.append_nil]

/-- **No schedule changes what the planning comes to.** -/
theorem outcomes_run (p : Pool) (schedule : List Nat) :
    (p.run c rendering schedule).outcomes c rendering = p.outcomes c rendering := by
  induction schedule generalizing p with
  | nil => rfl
  | cons i schedule ih =>
    show ((p.step c rendering i).run c rendering schedule).outcomes c rendering = _
    rw [ih, outcomes_step]

/-- At first it comes to the plans of the documents. -/
theorem outcomes_start (ds : List Document) :
    (start ds).outcomes c rendering = c.planAll rendering ds := by
  refine List.ext_getElem? fun i => ?_
  rw [outcomes, List.getElem?_mapIdx, start, Config.planAll, List.getElem?_map, List.getElem?_map,
    Option.map_map]
  rfl

/-! ### Turns -/

/-- A step of a pool is a step of one worker and of no other. -/
theorem workers_step {p : Pool} {i : Nat} {w : Worker} (h : p.workers[i]? = some w) (j : Nat) :
    (p.step c rendering j).workers[i]? = some (if j = i then (w.step c rendering).1 else w) := by
  by_cases hji : j = i
  · subst hji
    have hlt : j < p.workers.length := (List.getElem?_eq_some_iff.1 h).1
    rw [step_eq c rendering h, if_pos rfl]
    exact List.getElem?_set_self hlt
  · rw [if_neg hji]
    cases hw : p.workers[j]? with
    | none => rwa [step_of_none c rendering hw]
    | some w' =>
      rw [step_eq c rendering hw]
      exact (List.getElem?_set_ne hji).trans h

/-- Every turn of a worker brings it closer to its result, whatever the others do. -/
theorem turnsLeft_run {p : Pool} {i : Nat} {w : Worker} (h : p.workers[i]? = some w)
    (schedule : List Nat) :
    ∃ w', (p.run c rendering schedule).workers[i]? = some w' ∧
      w'.turnsLeft c rendering ≤ w.turnsLeft c rendering - schedule.count i := by
  induction schedule generalizing p w with
  | nil => exact ⟨w, h, Nat.le_refl _⟩
  | cons j schedule ih =>
    obtain ⟨w', hw', hleft⟩ := ih (workers_step c rendering h j)
    refine ⟨w', hw', ?_⟩
    have hstep := w.turnsLeft_step c rendering
    by_cases hji : j = i
    · subst hji
      rw [if_pos rfl] at hleft
      rw [List.count_cons_self]
      omega
    · rw [if_neg hji] at hleft
      rwa [List.count_cons_of_ne hji]

/-! ### The log -/

/-- A pool has as many workers as it had. -/
theorem length_workers_run (p : Pool) (schedule : List Nat) :
    (p.run c rendering schedule).workers.length = p.workers.length := by
  have h := congrArg List.length (outcomes_run c rendering p schedule)
  rwa [outcomes, outcomes, List.length_mapIdx, List.length_mapIdx] at h

/-- Only workers write. -/
theorem writer_lt_run {p : Pool} (hp : ∀ e ∈ p.log, e.1 < p.workers.length)
    (schedule : List Nat) :
    ∀ e ∈ (p.run c rendering schedule).log, e.1 < p.workers.length := by
  induction schedule generalizing p with
  | nil => exact hp
  | cons i schedule ih =>
    have hlength : (p.step c rendering i).workers.length = p.workers.length :=
      length_workers_run c rendering p [i]
    rw [← hlength]
    refine ih fun e he => ?_
    rw [hlength]
    cases hw : p.workers[i]? with
    | none =>
      rw [step_of_none c rendering hw] at he
      exact hp e he
    | some w =>
      rw [step_eq c rendering hw] at he
      rcases List.mem_append.1 he with hold | hnew
      · exact hp e hold
      · obtain ⟨event, -, rfl⟩ := List.mem_map.1 hnew
        exact (List.getElem?_eq_some_iff.1 hw).1

/-- Entries with numbers below `n` are those of each number in turn, in another order. -/
theorem perm_flatMap_filter {α : Type} {n : Nat} {entries : List (Nat × α)}
    (h : ∀ e ∈ entries, e.1 < n) :
    entries.Perm ((List.range n).flatMap fun i => entries.filter (·.1 = i)) := by
  induction n generalizing entries with
  | zero =>
    have hnil : entries = [] := List.eq_nil_iff_forall_not_mem.2 fun e he =>
      absurd (h e he) (Nat.not_lt_zero _)
    rw [hnil]
    exact List.Perm.refl _
  | succ n ih =>
    have hbelow : ∀ e ∈ entries.filter fun e => decide (e.1 < n), e.1 < n := fun e he =>
      of_decide_eq_true (List.mem_filter.1 he).2
    have hsame : ((List.range n).flatMap fun i =>
        (entries.filter fun e => decide (e.1 < n)).filter (·.1 = i)) =
        (List.range n).flatMap fun i => entries.filter (·.1 = i) := by
      refine List.flatMap_congr fun i hi => ?_
      have hlt := List.mem_range.1 hi
      rw [List.filter_filter]
      refine List.filter_congr fun e _ => ?_
      by_cases he : e.1 = i <;> simp [he, hlt]
    have hhigh : (entries.filter fun e => !decide (e.1 < n)) = entries.filter (·.1 = n) := by
      refine List.filter_congr fun e he => ?_
      have hle := Nat.le_of_lt_succ (h e he)
      by_cases hlt : e.1 < n
      · simp [hlt, Nat.ne_of_lt hlt]
      · simp [Nat.le_antisymm hle (Nat.le_of_not_lt hlt)]
    rw [List.range_succ, List.flatMap_append, List.flatMap_singleton, ← hsame, ← hhigh]
    have hsplit := (List.filter_append_perm (fun e => decide (e.1 < n)) entries).symm
    exact hsplit.trans ((ih hbelow).append_right _)

/-- The log is a shuffle of what the workers have written. -/
theorem perm_flatMap_eventsOf {p : Pool} {n : Nat} (hp : ∀ e ∈ p.log, e.1 < n) :
    p.events.Perm ((List.range n).flatMap p.eventsOf) := by
  have hperm := (perm_flatMap_filter hp).map (·.2)
  rwa [List.map_flatMap] at hperm

end Pool

/-- The lines of events in the order of their texts do not depend on the order of the events. -/
theorem Event.sortedLines_eq_of_perm {events events' : List Event} (h : events.Perm events')
    (threshold : Option Level) : sortedLines threshold events = sortedLines threshold events' := by
  have hlines : (lines threshold events).Perm (lines threshold events') := by
    cases threshold with
    | none => exact List.Perm.refl _
    | some t => exact (h.filter _).map _
  have hsorted : (sortedLines threshold events).Perm (sortedLines threshold events') :=
    (List.mergeSort_perm _ _).trans (hlines.trans (List.mergeSort_perm _ _).symm)
  exact List.Perm.eq_of_sortedLE List.sortedLE_mergeSort List.sortedLE_mergeSort hsorted

/-! ### Planning in a pool -/

namespace Pool

variable (ds : List Document) (schedule : List Nat)

/-- After any schedule, every document has a worker. What it has written and what it will come to
are together the plan that the document gets alone. -/
theorem exists_worker_run {i : Nat} (h : i < ds.length) :
    ∃ w, ((start ds).run c rendering schedule).workers[i]? = some w ∧
      (w.outcome c rendering).after (((start ds).run c rendering schedule).eventsOf i) =
        c.plan rendering ds[i] := by
  have hrun := (outcomes_run c rendering (start ds) schedule).trans
    (outcomes_start c rendering ds)
  have hi := congrArg (fun plans => plans[i]?) hrun
  rw [outcomes, List.getElem?_mapIdx, Config.planAll, List.getElem?_map,
    List.getElem?_eq_getElem h] at hi
  exact Option.map_eq_some_iff.1 hi

/-- A worker that has had its turns has a result. -/
theorem isSome_result?_run {i : Nat} (h : i < ds.length)
    (hturns : c.turns rendering ds[i] ≤ schedule.count i) {w : Worker}
    (hw : ((start ds).run c rendering schedule).workers[i]? = some w) : w.result?.isSome := by
  have hstart : (start ds).workers[i]? = some ⟨ds[i], .started, []⟩ := by
    rw [start, List.getElem?_map, List.getElem?_eq_getElem h]
    rfl
  obtain ⟨w', hw', hleft⟩ := turnsLeft_run c rendering hstart schedule
  have hsame : w' = w := Option.some.inj (hw'.symm.trans hw)
  subst hsame
  have hall : (Worker.mk ds[i] .started []).turnsLeft c rendering =
      c.turns rendering ds[i] := rfl
  have hnone : w'.turnsLeft c rendering = 0 := by omega
  rw [Worker.result?_of_turnsLeft c rendering hnone]
  rfl

/-- If all workers have results, they are those of the planning. -/
theorem results_eq_of_isSome {p : Pool} (hp : ∀ result ∈ p.results, result.isSome) :
    p.results = (p.outcomes c rendering).map fun plan => some plan.block := by
  refine List.ext_getElem? fun i => ?_
  rw [results, outcomes, List.getElem?_map, List.getElem?_map, List.getElem?_mapIdx,
    Option.map_map]
  cases hw : p.workers[i]? with
  | none => rfl
  | some w =>
    have hmem : w ∈ p.workers := List.mem_of_getElem? hw
    obtain ⟨block, hblock⟩ := Option.isSome_iff_exists.1 (hp _ (List.mem_map_of_mem hmem))
    show some w.result? = some (some (w.outcome c rendering).block)
    rw [hblock, Worker.outcome_of_result? c rendering hblock]

section Results

variable (hresults : ∀ result ∈ ((start ds).run c rendering schedule).results, result.isSome)

include hresults

/-- If all workers have results, each has written all events of its document. -/
theorem eventsOf_run_eq {i : Nat} (h : i < ds.length) :
    ((start ds).run c rendering schedule).eventsOf i = (c.plan rendering ds[i]).events := by
  obtain ⟨w, hw, hplan⟩ := exists_worker_run c rendering ds schedule h
  have hmem : w ∈ ((start ds).run c rendering schedule).workers := List.mem_of_getElem? hw
  obtain ⟨block, hblock⟩ :=
    Option.isSome_iff_exists.1 (hresults _ (List.mem_map_of_mem hmem))
  rw [← hplan, Worker.outcome_of_result? c rendering hblock]
  exact (List.append_nil _).symm

/-- The log is then a shuffle of the events that planning one document after the other reports. -/
theorem perm_events_run :
    ((start ds).run c rendering schedule).events.Perm
      ((c.planAll rendering ds).flatMap (·.events)) := by
  have hwriters : ∀ e ∈ ((start ds).run c rendering schedule).log, e.1 < ds.length := by
    have hstart := writer_lt_run c rendering (p := start ds) nofun schedule
    rwa [start, List.length_map] at hstart
  have hlists : (List.range ds.length).map ((start ds).run c rendering schedule).eventsOf =
      (c.planAll rendering ds).map (·.events) := by
    refine List.ext_getElem (by simp [Config.planAll]) fun i hi hi' => ?_
    simp only [List.getElem_map, List.getElem_range, Config.planAll]
    exact eventsOf_run_eq c rendering ds schedule hresults _
  have hperm := perm_flatMap_eventsOf hwriters
  rwa [List.flatMap_def, hlists, ← List.flatMap_def] at hperm

end Results

/-- **Planning in a pool is planning one document after the other.** Whatever the schedule, a worker
writes what planning its document alone reports, in this order, and comes to no other result. Once
all workers have results, these are the results of planning the documents in their order, every
worker has written all of its events, and the lines of the log are those of planning one document
after the other, if both are sorted. It is so once every worker has had its turns. -/
theorem planAll_of_schedule (c : Config) (rendering : Rendering) (ds : List Document)
    (schedule : List Nat) :
    let p := (start ds).run c rendering schedule
    (∀ i (h : i < ds.length), p.eventsOf i <+: (c.plan rendering ds[i]).events ∧
      ∀ block, p.results[i]? = some (some block) → block = (c.plan rendering ds[i]).block) ∧
    ((∀ result ∈ p.results, result.isSome) →
      p.results = (c.planAll rendering ds).map (fun plan => some plan.block) ∧
      (∀ i (h : i < ds.length), p.eventsOf i = (c.plan rendering ds[i]).events) ∧
      ∀ threshold, Event.sortedLines threshold p.events =
        Event.sortedLines threshold ((c.planAll rendering ds).flatMap (·.events))) ∧
    ((∀ i (h : i < ds.length), c.turns rendering ds[i] ≤ schedule.count i) →
      ∀ result ∈ p.results, result.isSome) := by
  intro p
  refine ⟨fun i h => ?_, fun hresults => ⟨?_, ?_, ?_⟩, fun hturns result hresult => ?_⟩
  · obtain ⟨w, hw, hplan⟩ := exists_worker_run c rendering ds schedule h
    refine ⟨⟨(w.outcome c rendering).events, congrArg FilePlan.events hplan⟩, ?_⟩
    intro block hblock
    rw [results, List.getElem?_map, hw] at hblock
    rw [← hplan, Worker.outcome_of_result? c rendering (Option.some.inj hblock)]
    rfl
  · rw [results_eq_of_isSome c rendering hresults, outcomes_run, outcomes_start]
  · exact fun i h => eventsOf_run_eq c rendering ds schedule hresults h
  · exact Event.sortedLines_eq_of_perm (perm_events_run c rendering ds schedule hresults)
  · obtain ⟨w, hmem, rfl⟩ := List.mem_map.1 hresult
    obtain ⟨i, hw⟩ := List.mem_iff_getElem?.1 hmem
    have hlt : i < ds.length := by
      have hi := (List.getElem?_eq_some_iff.1 hw).1
      rwa [length_workers_run, start, List.length_map] at hi
    exact isSome_result?_run c rendering ds schedule hlt (hturns i hlt) hw

/-- Two workers that take turns, one of them with more to do than the other. -/
theorem planAll_of_schedule_of_turns :
    let c : Config := ⟨{ Features.empty with genDeepEqual := true }, .empty⟩
    let ds : List Document := [{ Document.empty "a.thrift" with
      structs := [⟨"Point", [⟨1, "label", .string⟩]⟩] }, Document.empty "b.thrift"]
    let schedule := (List.replicate 16 [1, 0]).flatten
    let p := (start ds).run c confirmationsByType schedule
    (∀ i (h : i < ds.length), c.turns confirmationsByType ds[i] ≤ schedule.count i) ∧
      (∀ result ∈ p.results, result.isSome) ∧
      p.results = (c.planAll confirmationsByType ds).map (fun plan => some plan.block) ∧
      (∀ i (h : i < ds.length), p.eventsOf i = (c.plan confirmationsByType ds[i]).events) ∧
      ∀ threshold, Event.sortedLines threshold p.events =
        Event.sortedLines threshold ((c.planAll confirmationsByType ds).flatMap (·.events)) := by
  intro c ds schedule p
  have hturns : ∀ i (h : i < ds.length),
      c.turns confirmationsByType ds[i] ≤ schedule.count i := by decide +kernel
  obtain ⟨-, hequal, hdone⟩ := planAll_of_schedule c confirmationsByType ds schedule
  exact ⟨hturns, hdone hturns, hequal (hdone hturns)⟩

end Pool

end ImportPlan
