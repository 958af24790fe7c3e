import StateScript.Execute.Run
import StateScript.Proofs.Machines

/-!
What a run of actions goes through on its way. A followed run does the same as the plain one and
keeps every world that it passes, so that one can speak of all moments of a run and not only of its
end.
-/

namespace StateScript.Execute

/-- The world after one more operation, with the names of the loop scope that it has made, if any. Where a
method asks for something, this is a moment of its own, and where a timer goes off. -/
structure Moment where
  world : World
  made : Option (String × String) := none
  asked : Option Request := none
  cut : Bool := false

/-- A machine and the moments that have led to it, the latest one last. -/
structure Course where
  machine : Machine
  moments : List Moment

abbrev CourseM := ExceptT Interrupt (StateM Course)

namespace Followed

abbrev Reenter := ScopeId → List Json → ExecuteLimits → CourseM Unit

section

variable {α : Type}

/-- Takes an operation as one moment of a run. -/
def once (operation : ExecuteM α) : CourseM α := ExceptT.mk fun course =>
  let (result, machine) := operation.run course.machine
  (result, ⟨machine, course.moments ++ [{ world := machine.world }]⟩)

/-- A run that begins with the moment at which a method asks for something. -/
def asking (request : Request) (answered : CourseM α) : CourseM α := ExceptT.mk fun course =>
  answered.run ⟨course.machine, course.moments ++ [{ world := course.machine.world, asked := some request }]⟩

/-- Looks something up in the world, which takes no moment. -/
def read (f : World → α) : CourseM α := do return f (← get).machine.world

def fail (e : Error) : CourseM α := throw (.error e)

def attempt (run : CourseM α) : CourseM (Except Error α) := mapOutcome caught run

def withAction (raw : Json) (run : CourseM α) : CourseM α := mapOutcome (attributed raw) run

/-- No request but one has actions run. -/
def unentered : Execute.Reenter := fun _ _ _ => pure ()

end

section

variable (reenter : Reenter) (budget : Budget) (id : ScopeId)

def answer (request : Request) : CourseM Json := asking request <|
  match request with
  | .execute actions limits => reenter id actions limits *> return .null
  | request => once (Execute.answer unentered budget id request)

end

/-- Makes a loop scope. It is not made if there is nothing to make it in. -/
def makeLoop (id : ScopeId) (var indexVar : String) (item index : Json) : CourseM ScopeId :=
  ExceptT.mk fun course =>
    let (scope, world) := course.machine.world.addLoop id var indexVar item index
    let made := (course.machine.world.scope? id).map fun _ => (var, indexVar)
    (.ok scope, ⟨{ course.machine with world }, course.moments ++ [{ world, made }]⟩)

section

variable (reenter : Reenter) (budget : Budget)

def caller : Caller CourseM MethodFailure where
  once := once
  raise := fail
  read := read
  interact id := follow fun request => attempt (answer reenter budget id request)
  failed name failure := fail (failure.toError name)

def runner : Runner CourseM Error where
  toMode := (caller reenter budget).toMode
  error := id
  fail := fail
  attempt := attempt
  step raw run := withAction raw do
    once (tick budget)
    run
  perform := (caller reenter budget).perform
  makeLoop := makeLoop
  gather failed total := once (batchOutcome failed total)

end

/-- The moment at which a timer goes off, if one does. -/
def stopped (outcome : Except Interrupt Unit) (w : World) : List Moment :=
  match outcome with
  | .error .dropped => [{ world := w, cut := true }]
  | _ => []

def timed (limits : ExecuteLimits) (outer : Option Nat) (run : Budget → CourseM Unit) : CourseM Unit :=
  ExceptT.mk fun course =>
    let m := course.machine
    let own := m.world.clock + limits.timeoutMs
    let deadline := outer.elim own (min own)
    let (outcome, after) := (run ⟨m.world.clock, limits, some deadline⟩).run
      { course with machine := { m with steps := 0 } }
    let restored := ⟨{ after.machine with steps := m.steps }, after.moments ++ stopped outcome after.machine.world⟩
    match outcome with
    | .error .dropped =>
      if deadline = own then (.error (.error (timeoutError limits)), restored)
      else (.error .dropped, restored)
    | outcome => (outcome, restored)

theorem run_timed (limits : ExecuteLimits) (outer : Option Nat) (run : Budget → CourseM Unit) (course : Course) :
    (timed limits outer run).run course =
      let own := course.machine.world.clock + limits.timeoutMs
      let deadline := outer.elim own (min own)
      let ran := (run ⟨course.machine.world.clock, limits, some deadline⟩).run
        { course with machine := { course.machine with steps := 0 } }
      (timedOut limits own deadline ran.1, ⟨{ ran.2.machine with steps := course.machine.steps },
        ran.2.moments ++ stopped ran.1 ran.2.machine.world⟩) := by
  unfold timed
  simp only [ExceptT.run_mk]
  rcases (run _).run { course with machine := { course.machine with steps := 0 } } with ⟨(e | _) | _, after⟩
  · rfl
  · unfold timedOut
    dsimp only
    split <;> rfl
  · rfl

def runWithin : Nat → Option Nat → Reenter :=
  Runner.nested (fun limits => fail (timeoutError limits)) timed runner

/-- Executes actions, with the course that this takes. -/
def execute (id : ScopeId) (actions : List Json) (limits : ExecuteLimits) (w : World) :
    Except Error Unit × Course :=
  let (outcome, course) := (runWithin maxRunDepth none id actions limits).run ⟨⟨w, 0⟩, []⟩
  (settled limits outcome, course)

def runUntimed (id : ScopeId) (actions : List Json) (limits : ExecuteLimits) (w : World) :
    Except Error Unit × Course :=
  let (outcome, course) := ((runner (runWithin maxRunDepth none) ⟨w.clock, limits, none⟩).runAll id
    (Step.ofItems actions)).run ⟨⟨w, 0⟩, []⟩
  (settled limits outcome, course)

end Followed

section

variable {good : World → Prop} {fits : String × String → Prop} {α β : Type}

/-- If a loop scope is made, then it is the newest one, and it binds what its loop binds and nothing else. -/
def Moment.Fresh (moment : Moment) : Prop :=
  ∀ names ∈ moment.made, ∃ item index,
    moment.world.bindings (moment.world.scopes.next - 1) = World.loopBindings names.1 names.2 item index

/-- Some moments lead from one world to another, and if the first one is good, then all of them are
exactly if each loop scope that is made fits. -/
structure Leads (good : World → Prop) (fits : String × String → Prop) (before : World) (moments : List Moment)
    (after : World) : Prop where
  arrives : (moments.getLast?.map Moment.world).getD before = after
  fresh : ∀ moment ∈ moments, moment.Fresh
  good_iff : good before →
    ((∀ moment ∈ moments, good moment.world) ↔ ∀ moment ∈ moments, ∀ names ∈ moment.made, fits names)

theorem Leads.nil (w : World) : Leads good fits w [] w := by
  constructor
  · rfl
  · simp
  · intro _
    simp

theorem Leads.after_good {before after : World} {moments : List Moment}
    (leads : Leads good fits before moments after) (start : good before)
    (all : ∀ moment ∈ moments, good moment.world) : good after := by
  rw [← leads.arrives]
  cases last : moments.getLast? with
  | none => exact start
  | some moment => exact all moment (List.mem_of_getLast? last)

theorem Leads.append {before middle after : World} {some more : List Moment}
    (first : Leads good fits before some middle) (second : Leads good fits middle more after) :
    Leads good fits before (some ++ more) after := by
  constructor
  · rw [← second.arrives, ← first.arrives, List.getLast?_append]
    cases more.getLast? <;> simp
  · exact List.forall_mem_append.mpr ⟨first.fresh, second.fresh⟩
  · intro start
    rw [List.forall_mem_append, List.forall_mem_append]
    constructor
    · rintro ⟨here, there⟩
      have start' := first.after_good start here
      exact ⟨(first.good_iff start).mp here, (second.good_iff start').mp there⟩
    · rintro ⟨here, there⟩
      have all := (first.good_iff start).mpr here
      exact ⟨all, (second.good_iff (first.after_good start all)).mpr there⟩

/-- A timer that goes off leaves the world as it is. -/
theorem Leads.stopped (outcome : Except Interrupt Unit) (w : World) :
    Leads good fits w (Followed.stopped outcome w) w := by
  unfold Followed.stopped
  split
  · refine ⟨rfl, by simp [Moment.Fresh], fun start => ?_⟩
    simpa using start
  · exact Leads.nil w

/-- A followed operation does the same as a plain one, and the moments that it adds lead from the world that
it begins in to the world that it leaves. -/
def Follows (good : World → Prop) (fits : String × String → Prop) (followed : CourseM α) (plain : ExecuteM α) :
    Prop :=
  ∀ course, ∃ added, followed.run course =
      ((plain.run course.machine).1, ⟨(plain.run course.machine).2, course.moments ++ added⟩) ∧
    Leads good fits course.machine.world added (plain.run course.machine).2.world

namespace Follows

/-- What leaves the machine alone adds no moment. -/
theorem still {followed : CourseM α} {plain : ExecuteM α} (stays : ∀ m, (plain.run m).2 = m)
    (same : ∀ course, followed.run course = ((plain.run course.machine).1, course)) :
    Follows good fits followed plain := by
  intro course
  refine ⟨[], ?_, ?_⟩
  · rw [same, stays, List.append_nil]
  · rw [stays]
    exact Leads.nil _

theorem pure (a : α) : Follows good fits (Pure.pure a) (Pure.pure a) :=
  still (fun _ => rfl) fun _ => rfl

theorem throw (why : Interrupt) : Follows good fits (throw why : CourseM α) (throw why) :=
  still (fun _ => rfl) fun _ => rfl

theorem reading {f : World → α} {next : α → CourseM β} {next' : α → ExecuteM β}
    (continues : ∀ w, Follows good fits (next (f w)) (next' (f w))) :
    Follows good fits (Followed.read f >>= next) ((do return f (← get).world) >>= next') :=
  fun course => continues course.machine.world course

theorem bind {first : CourseM α} {first' : ExecuteM α} {next : α → CourseM β} {next' : α → ExecuteM β}
    (starts : Follows good fits first first') (continues : ∀ a, Follows good fits (next a) (next' a)) :
    Follows good fits (first >>= next) (first' >>= next') := by
  intro course
  obtain ⟨added, ran, leads⟩ := starts course
  rw [run_bind, run_bind, ran]
  rcases same : first'.run course.machine with ⟨why | a, after⟩
  · rw [same] at leads
    exact ⟨added, rfl, leads⟩
  · rw [same] at leads
    obtain ⟨more, ranOn, leadsOn⟩ := continues a ⟨after, course.moments ++ added⟩
    refine ⟨added ++ more, ?_, leads.append leadsOn⟩
    rw [← List.append_assoc]
    exact ranOn

theorem mapOutcome {followed : CourseM α} {plain : ExecuteM α} (follows : Follows good fits followed plain)
    (change : Except Interrupt α → Except Interrupt β) :
    Follows good fits (StateScript.mapOutcome change followed) (StateScript.mapOutcome change plain) := by
  intro course
  obtain ⟨added, ran, leads⟩ := follows course
  refine ⟨added, ?_, leads⟩
  show (change (followed.run course).1, (followed.run course).2) = _
  rw [ran]
  rfl

theorem attempt {followed : CourseM α} {plain : ExecuteM α} (follows : Follows good fits followed plain) :
    Follows good fits (Followed.attempt followed) (Execute.attempt plain) := by
  rw [attempt_eq]
  exact follows.mapOutcome caught

theorem withAction {followed : CourseM α} {plain : ExecuteM α} (follows : Follows good fits followed plain)
    (raw : Json) : Follows good fits (Followed.withAction raw followed) (Execute.withAction raw plain) := by
  rw [withAction_eq]
  exact follows.mapOutcome (attributed raw)

theorem ite (condition : Prop) [Decidable condition] {first second : CourseM α} {first' second' : ExecuteM α}
    (holds : Follows good fits first first') (fails : Follows good fits second second') :
    Follows good fits (if condition then first else second) (if condition then first' else second') := by
  split
  · exact holds
  · exact fails

/-- An operation that keeps what is good is one good moment. -/
theorem once {operation : ExecuteM α} (keeps : Keeps (fun m => good m.world) operation) :
    Follows good fits (Followed.once operation) operation := by
  intro course
  refine ⟨[{ world := (operation.run course.machine).2.world }], rfl, rfl, by simp [Moment.Fresh], ?_⟩
  intro start
  simpa using keeps course.machine start

theorem asking {answered : CourseM α} {plain : ExecuteM α} (follows : Follows good fits answered plain)
    (request : Request) : Follows good fits (Followed.asking request answered) plain := by
  intro course
  let asks : Moment := { world := course.machine.world, asked := some request }
  obtain ⟨added, ran, leads⟩ := follows ⟨course.machine, course.moments ++ [asks]⟩
  have asked : Leads good fits course.machine.world [asks] course.machine.world := by
    refine ⟨rfl, by simp [Moment.Fresh, asks], fun start => ?_⟩
    simpa [asks] using start
  refine ⟨[asks] ++ added, ?_, asked.append leads⟩
  rw [← List.append_assoc]
  exact ran

end Follows

end

end StateScript.Execute
