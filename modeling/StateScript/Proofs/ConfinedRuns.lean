import StateScript.Proofs.ConfinedEngines

/-!
Runs in which no method has anything evaluated. They evaluate what is written in their actions and nothing
else: what comes from state, from the items of a loop or from a method is never read as an expression,
however much it looks like one.
-/

namespace StateScript

/-- What an engine remembers of sources that are not allowed is as given, and nothing else differs. -/
def SessionRelation.confined (allowed : String → Prop) (first second : SessionId → String → Remembered) :
    SessionRelation := fun s a b =>
  a.paths = b.paths ∧ a.pool = b.pool ∧ Engine.Confined allowed (first s) (second s) a.engine b.engine

namespace SessionRelation

variable {allowed : String → Prop} {first second : SessionId → String → Remembered}

theorem confined_respected {α : Type} {operation : EngineM α}
    (confines : ∀ s, Engine.Confines allowed (first s) (second s) operation) :
    (confined allowed first second).Respected operation := by
  rintro s a b ⟨paths, pool, engines⟩
  obtain ⟨same, left⟩ := confines s engines
  exact ⟨same, paths, pool, left⟩

theorem confined_respectedByChanges : (confined allowed first second).RespectedByChanges allowed where
  paths related := related.1
  parsing related _ := ⟨rfl, related.2⟩
  invalidation := by
    rintro s a b ⟨paths, pool, engines⟩ path
    exact ⟨paths, pool, engines.withResults (congrArg (ResultCache.invalidate path) engines.results)⟩
  drawing related := ⟨related.1, congrArg (fun p : LoopPool => p.acquire.2) related.2.1, related.2.2⟩
  release related vars := ⟨related.1, congrArg (LoopPool.release vars) related.2.1, related.2.2⟩
  evaluate may resolver options := confined_respected fun _ => Engine.confines_evaluate resolver options may
  interpolate may resolver options :=
    confined_respected fun _ => (Engine.confines_sources resolver options).interpolate may
  resolveValue may resolver options :=
    confined_respected fun _ => (Engine.confines_sources resolver options).resolveValue may

end SessionRelation

namespace World

/-- What the engine of a session remembers of a source. -/
def remembered (w : World) (s : SessionId) : String → Remembered :=
  (w.sessions.find? s).elim (fun _ => (none, none)) fun session => session.engine.memory

/-- Worlds that are the same but for what their engines remember of sources that are not allowed. -/
def SameButMemory (allowed : String → Prop) (w w' : World) : Prop :=
  w.Alike w.trees (fun _ a b => a.paths = b.paths ∧ a.pool = b.pool ∧ a.engine.SameBut allowed b.engine) w'

variable {allowed : String → Prop} {w w' : World}

theorem remembered_eq {s : SessionId} {session : Session} (found : w.sessions.find? s = some session) :
    w.remembered s = session.engine.memory := by
  rw [remembered, found, Option.elim_some]

theorem SameButMemory.refl (allowed : String → Prop) (w : World) : w.SameButMemory allowed w where
  scopes := rfl
  left := rfl
  right := rfl
  events := rfl
  kept := rfl
  clock := rfl
  numbers := rfl
  sessions s := by
    cases w.sessions.find? s with
    | none => exact .none
    | some session => exact .some ⟨rfl, rfl, rfl, rfl, fun _ _ => rfl⟩

theorem sameButMemory_modifySession (w : World) (id : ScopeId) {change : Session → Session}
    (same : ∀ session, session.paths = (change session).paths ∧ session.pool = (change session).pool ∧
      session.engine.SameBut allowed (change session).engine) : w.SameButMemory allowed (w.modifySession id change) := by
  unfold modifySession
  cases w.tree? id with
  | none => exact .refl allowed w
  | some tree =>
    have unchanged := SameButMemory.refl allowed w
    refine { unchanged with sessions := fun s => ?_ }
    dsimp only
    rw [Store.find?_modify]
    split
    · cases w.sessions.find? s with
      | none => exact .none
      | some session => exact .some (same session)
    · exact unchanged.sessions s

theorem SameButMemory.confined (same : w.SameButMemory allowed w') :
    w.Alike w.trees (.confined allowed w.remembered w'.remembered) w' := by
  refine same.imp fun s a b first second related => ⟨related.1, related.2.1, ⟨related.2.2, ?_, ?_⟩⟩
  · exact fun source _ => congrFun (remembered_eq first).symm source
  · exact fun source _ => congrFun (remembered_eq second).symm source

end World

/-- The request has an expression evaluated, or actions run that may have one. -/
def Request.Evaluates : Request → Prop
  | .evaluate _ | .execute .. => True
  | _ => False

instance : DecidablePred Request.Evaluates
  | .evaluate _ | .execute .. => isTrue trivial
  | .getPath _ | .setPath .. | .bind .. | .describe | .keep | .suspend | .hang | .block _ => isFalse id

theorem Request.within_of_not_evaluates {request : Request} (asks : ¬ request.Evaluates) (allowed : String → Prop) :
    request.Within allowed := by
  cases request with
  | evaluate | execute => exact absurd trivial asks
  | _ => trivial

namespace Execute

/-- In a run in which no method has anything evaluated, an engine comes to remember something of a source only
if the source is written in the actions. What engines remember of other sources, be it the tree of another
expression, makes no difference to the run: it never looks for them. -/
theorem evaluates_written_only {w : World} {id : ScopeId} {actions : List Json} {limits : ExecuteLimits}
    (unasked : ∀ moment ∈ (Followed.execute id actions limits w).2.moments,
      ∀ request ∈ moment.asked, ¬ request.Evaluates) :
    let after := (execute id actions limits w).2
    (∀ s session, after.sessions.find? s = some session →
      ∀ source, session.engine.memory source ≠ w.remembered s source → Written actions source) ∧
    ∀ w', w.SameButMemory (Written actions) w' →
      (execute id actions limits w).1 = (execute id actions limits w').1 ∧
        after.SameButMemory (Written actions) (execute id actions limits w').2 := by
  have within := Step.within_written actions
  have twin {w' : World} (same : w.SameButMemory (Written actions) w') :=
    (World.alike_respectedByActions SessionRelation.confined_respectedByChanges).execute (i := ()) same.confined
      trivial within limits fun moment passed => by
        rintro (⟨⟨⟩, _⟩ | ⟨request, asked, strays⟩)
        exact strays (Request.within_of_not_evaluates (unasked moment passed request asked) _)
  refine ⟨fun s session found source differs => ?_, fun w' same => ⟨(twin same).1, ?_⟩⟩
  · by_contra unwritten
    have related := (twin (.refl _ w)).2.sessions s
    rw [found] at related
    cases related with
    | some confined => exact differs (confined.2.2.left source unwritten)
  · have left := (twin same).2
    rw [World.SameButMemory, left.left]
    exact left.imp fun _ _ _ _ _ related => ⟨related.1, related.2.1, related.2.2.toSameBut⟩

/-- A method that gives what it reads at a path. -/
def reading (path : String) : Method := fun _ =>
  .ask (.getPath path) fun
    | .ok v => .done v
    | .error e => .failed (.error e)

/-- State, items of a loop and the answer of a method that look like expressions. -/
def lures : ContextSpec where
  state := .object [("rows", .array [.string (Template.marked "1 + 1")]),
    ("secret", .string (Template.marked "2 + 2"))]
  methods := [("read", reading "secret")]

def luring : World := ((World.create lures 1).run (World.addSession (.ofCapacities 10 1024) {}).2).2

/-- Actions that hand on what they come across. -/
def handingOn : List Json :=
  [.object [("method", .string "read"), ("resultTo", .string "found"), ("type", .string "call")],
    .object [("body", .array [.object [("path", .string "last"), ("type", .string "set"),
        ("value", .string (Template.marked "row"))]]),
      ("in", .string "rows"), ("type", .string "loop"), ("var", .string "row")],
    .object [("cond", .string "found"), ("then", .array [.object [("data", .string (Template.marked "last")),
        ("event", .string "seen"), ("type", .string "emit")]]), ("type", .string "if")]]

theorem evaluates_written_only_among_lures :
    let after := (execute 1 handingOn {} luring).2
    let wrong : ParsedExpr := ⟨"1 + 1", .null ⟨.origin, 0⟩, [], 0⟩
    let misled := luring.modifySession 1 fun s => { s with engine := { s.engine with parsed := wrong :: s.engine.parsed } }
    (∀ moment ∈ (Followed.execute 1 handingOn {} luring).2.moments, ∀ request ∈ moment.asked, ¬ request.Evaluates) ∧
      ¬ Written handingOn "1 + 1" ∧ (after.remembered 1 "row").1.isSome = true ∧
      (∀ session, after.sessions.find? 1 = some session → session.engine.memory "1 + 1" = (none, none)) ∧
      (execute 1 handingOn {} luring).1 = (execute 1 handingOn {} misled).1 := by
  intro after wrong misled
  have unasked : ∀ moment ∈ (Followed.execute 1 handingOn {} luring).2.moments,
      ∀ request ∈ moment.asked, ¬ request.Evaluates := by decide +kernel
  have unwritten : ¬ Written handingOn "1 + 1" := by decide +kernel
  have stored : (after.remembered 1 "row").1.isSome = true := by decide +kernel
  obtain ⟨kept, unseen⟩ := evaluates_written_only unasked
  refine ⟨unasked, unwritten, stored, fun session found => ?_, (unseen misled ?_).1⟩
  · by_contra differs
    exact unwritten (kept 1 session found "1 + 1" differs)
  · exact World.sameButMemory_modifySession luring 1 fun session =>
      ⟨rfl, rfl, Engine.sameBut_plant session.engine unwritten⟩

end Execute

end StateScript
