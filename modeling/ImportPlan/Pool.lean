import ImportPlan.Plan

namespace ImportPlan

/-!
# Pools

Documents that are planned at the same time. Every document has a worker with a session of its own.
All workers share the settings, which nobody changes, and one log, which they extend event by event.

* `Stage`, `Worker` — how far the planning of a document has got, and what is still to be written
  about it.
* `Worker.step` — one step: the next event is written, or the session is asked once more.
* `Pool.step`, `Pool.run` — one step of one worker, and the steps of a schedule.
* `Config.turns` — the number of steps that a document takes.
* `Pool.results`, `Pool.events`, `Pool.eventsOf` — what the workers have come to and what they have
  written.
-/

/-- How far the planning of a document has got. -/
inductive Stage
  /-- Nothing has happened. -/
  | started
  /-- The document is registered, and these steps of its rendering are left. -/
  | rendering (session : Session) (steps : List Session.Step)
  | finished (block : Except Misuse Block)

/-- Someone who plans one document. -/
structure Worker where
  document : Document
  stage : Stage
  /-- What has been reported and is not in the log yet. -/
  unwritten : List Event

/-- Resolves the imports of a rendered document. -/
def FilePlan.ofSession (d : Document) (s : Session) : FilePlan :=
  match s.resolve with
  | (.error misuse, events) => ⟨.error misuse, events⟩
  | (.ok block, events) => ⟨.ok block, events ++ [.planned d.filename block.size]⟩

/-- What the planning of a document does next, and what it reports. -/
def Stage.next (c : Config) (rendering : Rendering) (d : Document) : Stage → Stage × List Event
  | .started =>
    match c.session.registerDocument c.features d with
    | (.error misuse, events) => (.finished (.error misuse), events)
    | (.ok s, events) => (.rendering s (rendering d), events)
  | .rendering s (p :: steps) =>
    let (s', _, events) := s.step p
    (.rendering s' steps, events)
  | .rendering s [] =>
    let plan := FilePlan.ofSession d s
    (.finished plan.block, plan.events)
  | .finished block => (.finished block, [])

namespace Worker

/-- One step, with the event that is written if there is one left. -/
def step (c : Config) (rendering : Rendering) (w : Worker) : Worker × Option Event :=
  match w.unwritten with
  | event :: rest => ({ w with unwritten := rest }, some event)
  | [] =>
    let (stage, events) := w.stage.next c rendering w.document
    ({ w with stage, unwritten := events }, none)

/-- What the worker has come to, once everything is written. -/
def result? (w : Worker) : Option (Except Misuse Block) :=
  match w.stage, w.unwritten with
  | .finished block, [] => some block
  | _, _ => none

end Worker

/-- Workers in the order of their documents, and a log that says who has written what. -/
structure Pool where
  workers : List Worker
  log : List (Nat × Event)

/-- The number of steps in which a worker plans a document: the registration, the rendering, the
resolution, and one for each event. -/
def Config.turns (c : Config) (rendering : Rendering) (d : Document) : Nat :=
  (rendering d).length + 2 + (c.plan rendering d).events.length

namespace Pool

/-- One worker for each document; none of them has done anything. -/
def start (ds : List Document) : Pool := ⟨ds.map (⟨·, .started, []⟩), []⟩

/-- One step of the worker at this place; a worker with a result has nothing left to do. -/
def step (c : Config) (rendering : Rendering) (p : Pool) (i : Nat) : Pool :=
  match p.workers[i]? with
  | none => p
  | some w =>
    let (w', event) := w.step c rendering
    ⟨p.workers.set i w', p.log ++ event.toList.map (i, ·)⟩

/-- Steps of the workers at these places in turn. -/
def run (c : Config) (rendering : Rendering) (p : Pool) (schedule : List Nat) : Pool :=
  schedule.foldl (step c rendering) p

/-- What the workers have come to. -/
def results (p : Pool) : List (Option (Except Misuse Block)) := p.workers.map (·.result?)

/-- The events of the log. -/
def events (p : Pool) : List Event := p.log.map (·.2)

/-- The events that one worker has written. -/
def eventsOf (p : Pool) (i : Nat) : List Event := (p.log.filter (·.1 = i)).map (·.2)

end Pool

/-- The lines of events in the order of their texts. -/
def Event.sortedLines (threshold : Option Level) (events : List Event) : List String :=
  (lines threshold events).mergeSort fun x y => decide (x ≤ y)

end ImportPlan
