import TreeScript.Proofs.LabelOrders

/-!
# Sessions

A compile may end at any of its stages. However it ends, its result, the stage of the session and the
diagnostics agree, and they depend on nothing that was compiled before.

* `Concludes` is what a part of a compile promises about the entries it reports and the error it ends
  with, if it ends the compile.
* `Session.Agrees` is the agreement of a session with the result of the last compile.
* `Compiler.after` is the session behind calls in a row, each with what it finds when it is made.
-/

namespace TreeScript

open Stoppable (Matches)

/-! ## 1. Strategies made of steps -/

namespace Lowering

/-- A strategy that is a sequence of steps. They may depend on the code and on the state, and a step
that stops need not be the last one. -/
def Strategy.Stepwise (strategy : Strategy) : Prop :=
  ∀ code s, ∃ steps, ((strategy code).run s).2 = State.after s steps

theorem Strategy.standard_stepwise : Strategy.standard.Stepwise := by
  intro code s
  refine ⟨[.children code], ?_⟩
  rw [State.after_cons, Step.run, snd_run_answer]
  rfl

theorem Strategy.ofSteps_stepwise (steps : Node → List Step) :
    (Strategy.ofSteps steps).Stepwise := by
  intro code s
  show ∃ taken, ((runAll (steps code)).run s).2 = s.after taken
  induction steps code generalizing s with
  | nil => exact ⟨[], rfl⟩
  | cons step rest ih =>
    rw [runAll_cons_run]
    by_cases hok : (step.run.run s).1.isOk
    · obtain ⟨taken, htaken⟩ := ih (step.run.run s).2
      exact ⟨step :: taken, by rw [if_pos hok, htaken, State.after_cons]⟩
    · -- the steps behind the one that stops are not taken
      exact ⟨[step], by rw [if_neg hok]; rfl⟩

/-- Such a strategy reports entries, and so does resolving behind it. -/
theorem Strategy.Stepwise.reports {strategy : Strategy} (h : strategy.Stepwise) (code : Node)
    (s : State) :
    ∃ entries, ((do strategy code; emit .nop; resolve : Lower Unit).run s).2.diagnostics =
      s.diagnostics.reportAll entries := by
  have htaken : ∃ steps, ((do strategy code; emit .nop; resolve : Lower Unit).run s).2 =
      s.after steps := by
    obtain ⟨steps, hsteps⟩ := h code s
    rw [Stoppable.run_bind]
    rcases hrun : (strategy code).run s with ⟨fault | ⟨⟩, s'⟩
    · rw [hrun] at hsteps
      exact ⟨steps, hsteps⟩
    · rw [hrun] at hsteps
      refine ⟨steps ++ [.emit .nop, .resolve], ?_⟩
      rw [State.after_append, ← hsteps, State.after_cons, State.after_cons, Step.run, Step.run,
        snd_run_answer]
      rfl
  obtain ⟨steps, hsteps⟩ := htaken
  obtain ⟨resolved, hgrows, -⟩ := s.grows_after steps
  rw [hsteps]
  exact hgrows.diagnostics

end Lowering

/-! ## 2. Parts of a compile -/

/-- What an error says about the entries before it. There is no error of a document once there is a
document. -/
def CompileError.AccountsFor (d : Diagnostics) : CompileError → Prop
  | .failed errors warnings => errors = d.errors ∧ warnings = d.warnings ∧ 1 ≤ errors
  | .fatal _ => True
  | .document _ => False

namespace Compiler

open Lowering

/-- From some entries on, a part of a compile reports more of them. Either it goes on with a value, or
it ends the compile with an error that accounts for all of them. -/
structure Concludes {α : Type} (x : Compiling α) (d : Diagnostics) (post : α → Diagnostics → Prop) :
    Prop where
  reports : ∃ entries, (x.run d).2 = d.reportAll entries
  ok : ∀ a, (x.run d).1 = .ok a → post a (x.run d).2
  error : ∀ e, (x.run d).1 = .error e → e.AccountsFor (x.run d).2

section Rules

variable {α β : Type} {x : Compiling α} {d : Diagnostics} {post : α → Diagnostics → Prop}

theorem concludes_ok {a : α} (entries : List Diagnostic)
    (h : x.run d = (.ok a, d.reportAll entries)) (hpost : post a (d.reportAll entries)) :
    Concludes x d post := by
  refine ⟨⟨entries, by rw [h]⟩, fun a' ha' => ?_, fun e he => ?_⟩
  · rw [h] at ha' ⊢
    cases ha'
    exact hpost
  · rw [h] at he
    cases he

theorem concludes_error {e : CompileError} (entries : List Diagnostic)
    (h : x.run d = (.error e, d.reportAll entries))
    (haccounts : e.AccountsFor (d.reportAll entries)) : Concludes x d post := by
  refine ⟨⟨entries, by rw [h]⟩, fun a ha => ?_, fun e' he' => ?_⟩
  · rw [h] at ha
    cases ha
  · rw [h] at he' ⊢
    cases he'
    exact haccounts

theorem Concludes.bind {f : α → Compiling β} {post' : β → Diagnostics → Prop}
    (hx : Concludes x d post) (hf : ∀ a d', post a d' → Concludes (f a) d' post') :
    Concludes (x >>= f) d post' := by
  obtain ⟨⟨entries, hentries⟩, hok, herror⟩ := hx
  rcases hrun : x.run d with ⟨e | a, d'⟩
  · rw [hrun] at hentries herror
    apply concludes_error entries
    · rw [Stoppable.run_bind, hrun]
      exact congrArg _ hentries
    · exact hentries ▸ herror e rfl
  · rw [hrun] at hentries hok
    obtain ⟨⟨entries', hentries'⟩, hok', herror'⟩ := hf a d' (hok a rfl)
    have hbind : (x >>= f).run d = (f a).run d' := by
      rw [Stoppable.run_bind, hrun]
    refine ⟨⟨entries ++ entries', ?_⟩, by rwa [hbind], by rwa [hbind]⟩
    rw [hbind, hentries', Diagnostics.reportAll_append, ← hentries]

theorem fail_concludes (h : 1 ≤ d.errors) : Concludes (fail : Compiling α) d post :=
  concludes_error [] (fail_run d) ⟨rfl, rfl, h⟩

end Rules

/-- If a document does not conform to the grammar, that is reported as an error. -/
theorem validate_concludes (grammar : Grammar) (document : Document) (d : Diagnostics) :
    Concludes (liftM (grammar.validate document) : Compiling (Option Node)) d
      (fun result d' => result = none → 1 ≤ d'.errors) := by
  by_cases haccepts : grammar.Accepts document
  · apply concludes_ok []
    · rw [Stoppable.run_liftM, Grammar.validate_of_accepts haccepts]
      rfl
    · intro h
      cases h
  · apply concludes_ok (grammar.violationsOf document)
    · rw [Stoppable.run_liftM, Grammar.validate_of_not_accepts haccepts]
    · intro _
      have herrors := Grammar.errors_violationsOf haccepts d
      rw [Diagnostics.errors_reportAll] at herrors ⊢
      omega

theorem partsOf_concludes (root : Node) (d : Diagnostics) :
    Concludes (partsOf root) d fun _ _ => True := by
  rcases partsOf_cases root d with ⟨header, code, -, -, hrun⟩ | ⟨part, hrun⟩ | ⟨herrors, hrun⟩
  · exact concludes_ok [] hrun trivial
  · exact concludes_error [] hrun trivial
  · refine concludes_error _ hrun ⟨rfl, rfl, ?_⟩
    -- the count was not zero before, or it has changed
    rw [Diagnostics.errors_reportAll] at herrors ⊢
    omega

theorem header_concludes (node : Node) (d : Diagnostics) :
    Concludes (liftM (Header.ofNode node) : Compiling Header) d fun _ _ => True := by
  apply concludes_ok (Header.remarks node)
  · rw [Stoppable.run_liftM, Header.ofNode_apply]
  · trivial

theorem lowerCode_concludes {strategy : Strategy} (h : strategy.Stepwise) (order : LabelOrder)
    (code : Node) (d : Diagnostics) :
    Concludes (lowerCode strategy order code) d fun _ _ => True := by
  obtain ⟨entries, hentries⟩ := h.reports code { order, diagnostics := d }
  have hrun := @lowerCode_strategy code order d strategy
  rcases hended : (do strategy code; emit .nop; resolve : Lower Unit).run { order, diagnostics := d }
    with ⟨fault | ⟨⟩, s⟩
  · rw [hended] at hrun hentries
    exact concludes_error entries (hrun.trans (congrArg _ hentries)) trivial
  · rw [hended] at hrun hentries
    exact concludes_ok entries (hrun.trans (congrArg _ hentries)) trivial

theorem report_concludes (entries : List Diagnostic) (d : Diagnostics) :
    Concludes (entries.forM fun entry => (Reporting.report entry : Compiling Unit)) d
      fun _ _ => True :=
  concludes_ok entries (forM_report_run entries d) trivial

/-- The last stage lets an executable pass only if no error was reported. -/
theorem gate_concludes (executable : Executable) (d : Diagnostics) :
    Concludes (do
        if (← get).hasErrors then fail
        return executable) d fun _ d' => d'.errors = 0 := by
  by_cases herrors : d.hasErrors
  · refine concludes_error (e := .failed d.errors d.warnings) [] ?_
      ⟨rfl, rfl, of_decide_eq_true herrors⟩
    simp only [Stoppable.run_bind, Stoppable.run_get, if_pos herrors, fail_run]
    rfl
  · have hnone : d.errors = 0 := by simpa [Diagnostics.hasErrors] using herrors
    refine concludes_ok (a := executable) [] ?_ hnone
    simp only [Stoppable.run_bind, Stoppable.run_get, if_neg herrors]
    rfl

theorem assemble_concludes {compiler : Compiler} (h : compiler.strategy.Stepwise) (document : Document)
    (order : LabelOrder) (d : Diagnostics) :
    Concludes (compiler.assemble document order) d fun _ d' => d'.errors = 0 := by
  unfold assemble
  refine (validate_concludes compiler.grammar document d).bind fun result d' hresult => ?_
  cases result with
  | none => exact fail_concludes (hresult rfl)
  | some root =>
    refine (partsOf_concludes root d').bind fun parts d' _ => ?_
    refine (header_concludes parts.1 d').bind fun header d' _ => ?_
    refine (lowerCode_concludes h order parts.2 d').bind fun code d' _ => ?_
    refine (report_concludes (strayTargets code) d').bind fun _ d' _ => ?_
    exact gate_concludes ⟨header, code⟩ d'

end Compiler

/-! ## 3. Results and sessions -/

/-- The number of entries of a severity. -/
def Diagnostics.count (d : Diagnostics) (severity : Severity) : Nat :=
  d.entries.toList.countP fun entry => entry.severity = severity

/-- The counts of diagnostics that began empty are the numbers of their entries. -/
theorem Diagnostics.count_reportAll (entries : List Diagnostic) :
    (({} : Diagnostics).reportAll entries).errors =
        (({} : Diagnostics).reportAll entries).count .error ∧
      (({} : Diagnostics).reportAll entries).warnings =
        (({} : Diagnostics).reportAll entries).count .warning := by
  have hentries : (({} : Diagnostics).reportAll entries).entries.toList = entries := by
    rw [entries_reportAll, Array.toList_append]
    exact List.nil_append entries
  rw [count, count, hentries, errors_reportAll, warnings_reportAll]
  exact ⟨Nat.zero_add _, Nat.zero_add _⟩

/-- The result of the last compile, the stage and the diagnostics agree. -/
structure Session.Agrees (session : Session) (result : Except CompileError Executable) : Prop where
  errors : session.diagnostics.errors = session.diagnostics.count .error
  warnings : session.diagnostics.warnings = session.diagnostics.count .warning
  stage : session.stage = if result.isOk then .done else .failed
  ok : result.isOk → session.diagnostics.errors = 0
  failed : ∀ errors warnings, result = .error (.failed errors warnings) →
    errors = session.diagnostics.errors ∧ warnings = session.diagnostics.warnings ∧ 1 ≤ errors
  fatal : ∀ fault, result = .error (.fatal fault) →
    ∃ entry, session.diagnostics.entries.back? = some entry ∧ entry.severity = .error ∧
      entry.message = fault.message
  document : ∀ error, result = .error (.document error) →
    ∃ entry, session.diagnostics.entries = #[entry] ∧ entry.severity = .error ∧
      entry.message = error.message

/-- A call of a compiler. -/
inductive Call where
  | document (document : Document)
  | source (source : Source)

namespace Compiler

open Lowering

/-- Answers a call. -/
def answer (compiler : Compiler) (order : LabelOrder) :
    Call → StateM Session (Except CompileError Executable)
  | .document document => compiler.compile document order
  | .source source => compiler.compileSource source order

variable {compiler : Compiler} {order : LabelOrder}

/-- The session of a compile agrees with the result if the result accounts for the entries of all
stages. -/
theorem agrees_of_accounts {result : Except CompileError Executable} {entries : List Diagnostic}
    (hok : ∀ executable, result = .ok executable → (({} : Diagnostics).reportAll entries).errors = 0)
    (herror : ∀ e, result = .error e → e.AccountsFor (({} : Diagnostics).reportAll entries)) :
    Session.Agrees
      { diagnostics := (({} : Diagnostics).reportAll entries).reportAll (finalRemarks result)
        stage := finalStage result }
      result := by
  obtain ⟨herrors, hwarnings⟩ := Diagnostics.count_reportAll (entries ++ finalRemarks result)
  rw [Diagnostics.reportAll_append] at herrors hwarnings
  rcases result with (⟨errors, warnings⟩ | fault | error) | executable
  · -- nothing is reported at the end, so the counts are still the final ones
    have hcounts := herror _ rfl
    refine ⟨herrors, hwarnings, rfl, nofun, ?_, nofun, nofun⟩
    rintro _ _ ⟨⟩
    exact hcounts
  · -- the fault is reported behind everything else
    refine ⟨herrors, hwarnings, rfl, nofun, nofun, ?_, nofun⟩
    rintro _ ⟨⟩
    exact ⟨.aborted fault, Array.back?_push, rfl, rfl⟩
  · -- a compile that has begun has a document
    cases herror _ rfl
  · exact ⟨herrors, hwarnings, rfl, fun _ => hok _ rfl, nofun, nofun, nofun⟩

theorem compile_agrees (h : compiler.strategy.Stepwise) (document : Document) (order : LabelOrder)
    (session : Session) :
    (compiler.compile document order session).2.Agrees
      (compiler.compile document order session).1 := by
  obtain ⟨⟨entries, hentries⟩, hok, herror⟩ := assemble_concludes h document order {}
  rw [compile_apply]
  rw [hentries] at hok herror
  simp only [hentries]
  exact agrees_of_accounts hok herror

/-- A source that is no document leaves one entry. -/
theorem compileSource_of_error {source : Source} {error : DocumentError}
    (h : Document.parse source = .error error) (session : Session) :
    compiler.compileSource source order session =
      (.error (.document error),
        { diagnostics := ({} : Diagnostics).reportAll [.refused error], stage := .failed }) := by
  rw [compileSource, h]
  rfl

theorem compileSource_of_ok {source : Source} {document : Document}
    (h : Document.parse source = .ok document) :
    compiler.compileSource source order = compiler.compile document order := by
  rw [compileSource, h]

/-- A call compiles a document, unless its source holds none. -/
theorem answer_cases (call : Call) :
    (∃ document, ∀ (compiler : Compiler) (order : LabelOrder),
      compiler.answer order call = compiler.compile document order) ∨
    ∃ error, ∀ (compiler : Compiler) (order : LabelOrder) (session : Session),
      compiler.answer order call session =
        (.error (.document error),
          { diagnostics := ({} : Diagnostics).reportAll [.refused error], stage := .failed }) := by
  cases call with
  | document document => exact .inl ⟨document, fun _ _ => rfl⟩
  | source source =>
    cases hparse : Document.parse source with
    | ok document => exact .inl ⟨document, fun _ _ => compileSource_of_ok hparse⟩
    | error error => exact .inr ⟨error, fun _ _ => compileSource_of_error hparse⟩

/-- However a compile ends, its result, the stage of the session and the diagnostics agree. -/
theorem answer_agrees (h : compiler.strategy.Stepwise) (order : LabelOrder) (call : Call)
    (session : Session) :
    (compiler.answer order call session).2.Agrees (compiler.answer order call session).1 := by
  rcases answer_cases call with ⟨document, hanswer⟩ | ⟨error, hanswer⟩
  · rw [hanswer]
    exact compile_agrees h document order session
  · obtain ⟨herrors, hwarnings⟩ := Diagnostics.count_reportAll [.refused error]
    rw [hanswer]
    refine ⟨herrors, hwarnings, rfl, nofun, nofun, nofun, ?_⟩
    rintro _ ⟨⟩
    exact ⟨.refused error, rfl, rfl, rfl⟩

/-- A strategy whose goto leads past the end of the code. -/
def strayGoto : Strategy := .ofSteps fun _ =>
  [.emit (.goto "end" none), .await "end" 0, .define "end" 7, .define "spare" 0]

theorem gotoLoop_agrees :
    let loop := answer ⟨.standard, .standard⟩ .byName (.document gotoLoop) {}
    let stray := answer ⟨.standard, strayGoto⟩ .byName (.document gotoLoop) {}
    loop.2.Agrees loop.1 ∧ loop.2.stage = .done ∧
      stray.2.Agrees stray.1 ∧ stray.2.stage = .failed ∧
      stray.2.diagnostics = {
        entries := #[.labelUnused "spare" 0, .targetPastEnd "goto" 0 7]
        errors := 1
        warnings := 1 } := by
  refine ⟨?_, ?_, ?_, ?_, ?_⟩
  · exact answer_agrees Strategy.standard_stepwise _ _ _
  · decide +kernel
  · exact answer_agrees (Strategy.ofSteps_stepwise _) _ _ _
  · decide +kernel
  · decide +kernel

/-! ## 4. Compiles in a row -/

/-- A call with what it finds when it is made: what the lowering remembers by then, be it of the calls
before or of anything else, and the order of labels in a new table. -/
structure Turn (Memory : Type) where
  call : Call
  memory : Memory
  order : LabelOrder

section Turns

variable {Memory : Type} (grammar : Grammar) (lowering : Memory → Strategy)

/-- Answers the call of a turn on a compiler whose lowering acts on what it remembers. -/
def take (turn : Turn Memory) : StateM Session (Except CompileError Executable) :=
  answer ⟨grammar, lowering turn.memory⟩ turn.order turn.call

/-- The session of a new compiler behind turns. -/
def after (turns : List (Turn Memory)) : Session :=
  turns.foldl (fun session turn => (take grammar lowering turn session).2) {}

/-- What turns in a row answer, each with the session behind it. -/
def answers : List (Turn Memory) → Session → List (Except CompileError Executable × Session)
  | [], _ => []
  | turn :: turns, session =>
    take grammar lowering turn session ::
      answers turns (take grammar lowering turn session).2

end Turns

/-- A call is answered as if it were the first one. -/
theorem answer_eq (compiler : Compiler) (order : LabelOrder) (call : Call) (session : Session) :
    compiler.answer order call session = compiler.answer order call {} := by
  rcases answer_cases call with ⟨document, hanswer⟩ | ⟨error, hanswer⟩
  · rw [hanswer, compile_apply, compile_apply]
  · rw [hanswer, hanswer]

theorem answer_alike {strategy : Strategy} (h : strategy.Steady) (grammar : Grammar)
    (order order' : LabelOrder) (call : Call) (session : Session) :
    Matches Session.Alike (answer ⟨grammar, strategy⟩ order call session)
      (answer ⟨grammar, strategy⟩ order' call session) := by
  rcases answer_cases call with ⟨document, hanswer⟩ | ⟨error, hanswer⟩
  · rw [hanswer, hanswer]
    exact compile_alike h grammar document order order' session session
  · rw [hanswer, hanswer]
    exact ⟨rfl, .refl _⟩

theorem answers_eq_map {Memory : Type} (grammar : Grammar) (lowering : Memory → Strategy)
    (turns : List (Turn Memory)) (session : Session) :
    answers grammar lowering turns session =
      turns.map fun turn => take grammar lowering turn {} := by
  induction turns generalizing session with
  | nil => rfl
  | cons turn turns ih => rw [answers, ih, take, answer_eq _ _ _ session, List.map_cons, take]

/-- Compiles do not leak into each other. Behind any turns, the next one has the result and leaves the
session that it has and leaves on a new compiler with the same grammar and the same lowering, which
remembers the same. If the labels are found in another order there, the answers still match, but for
the order of reports on labels at one address. Turns in a row are answered one by one. -/
theorem answer_after {Memory : Type} (grammar : Grammar) (lowering : Memory → Strategy)
    (turns : List (Turn Memory)) (next : Turn Memory) :
    take grammar lowering next (after grammar lowering turns) = take grammar lowering next {} ∧
      ((lowering next.memory).Steady → ∀ order : LabelOrder,
        Matches Session.Alike (take grammar lowering next (after grammar lowering turns))
          (take grammar lowering { next with order } {})) ∧
      answers grammar lowering turns {} = turns.map fun turn => take grammar lowering turn {} := by
  have hfirst : take grammar lowering next (after grammar lowering turns) =
      take grammar lowering next {} := answer_eq _ _ _ _
  refine ⟨hfirst, fun hsteady order => ?_, answers_eq_map grammar lowering turns {}⟩
  rw [hfirst]
  exact answer_alike hsteady grammar next.order order next.call {}

/-- A lowering that counts its calls and goes astray at the first of them. -/
def learning (calls : Nat) : Strategy :=
  if calls = 0 then strayGoto else .standard

/-- Behind a compile that went astray and a source that is no document. -/
theorem twins_after :
    let turns : List (Turn Nat) :=
      [⟨.document gotoLoop, 0, .byName⟩, ⟨.source ⟨"[", "broken.json"⟩, 1, .byName⟩]
    let next : Turn Nat := ⟨.document twins, 1, .fromLast⟩
    let last := take .standard learning next (after .standard learning turns)
    (after .standard learning turns).stage = .failed ∧ last = take .standard learning next {} ∧
      Matches Session.Alike last (take .standard learning { next with order := .byName } {}) := by
  intro turns next last
  obtain ⟨hsame, halike, -⟩ := answer_after .standard learning turns next
  exact ⟨by decide +kernel, hsame, halike Strategy.standard_steady .byName⟩

end Compiler

end TreeScript
