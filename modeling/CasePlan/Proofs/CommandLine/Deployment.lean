import CasePlan.CommandLine.Program
import CasePlan.Proofs.Deployment.Exchange
import CasePlan.Proofs.Inspection.View

/-!
# Deploying from the command line

The command that deploys sends nothing unless its settings are found and its case is compiled.  Then
the deployment goes its way, and the program reports what comes of it, except that it is stopped by
an answer that is no text or no JSON.

* `run_ofExchange`: a script that carries out an exchange sends the requests of the exchange.
* `IsReady`: what a deployment needs; `run_deployScript`: without it nothing is sent.
* `Run.Reports`: what the program reports of a deployment; `reports_ofExchange`: it does so at the end.
* `deploy_course`: all of this for every run of the command.
-/

namespace CasePlan.CommandLine

/-! ## Steps of scripts -/

/-- A script that carries out an exchange sends its requests and goes on with its result. -/
theorem run_ofExchange {α : Type} (d : Directory) (next : α → Script) (x : Exchange α)
    (replies : List Reply) :
    (Script.ofExchange next x).run d replies =
      let ended := x.run replies
      let r := (next ended.1).run d (replies.drop ended.2.length)
      { r with requests := ended.2 ++ r.requests } := by
  induction x generalizing replies with
  | done result => rfl
  | ask request go ih =>
    rw [Script.ofExchange, Script.run, ih, Exchange.run]
    simp only [List.length_cons, List.drop_tail, List.cons_append]

/-- A file holds a text, with any line ends. -/
def Directory.HoldsText (d : Directory) (path t : Text) : Prop :=
  ∃ bytes written, d.read path = .ok bytes ∧ Utf8.decode? bytes = .ok written ∧
    t = universalLines written

theorem Directory.HoldsText.eq {d : Directory} {path t u : Text} (ht : d.HoldsText path t)
    (hu : d.HoldsText path u) : t = u := by
  obtain ⟨bytes, written, hread, hdecode, rfl⟩ := ht
  obtain ⟨bytes', written', hread', hdecode', rfl⟩ := hu
  obtain rfl := Except.ok.inj (hread.symm.trans hread')
  obtain rfl := Except.ok.inj (hdecode.symm.trans hdecode')
  rfl

/-- A script that reads a text goes on with it, or ends without requests. -/
theorem run_readText (d : Directory) (replies : List Reply) (path : Text) (next : Text → Script) :
    (∃ t, d.HoldsText path t ∧
        (readText path next).run d replies = (next t).run d replies) ∨
      (∀ t, ¬d.HoldsText path t) ∧ ((readText path next).run d replies).requests = [] := by
  rw [readText, Script.run]
  cases hbytes : d.read path with
  | error fault =>
    refine .inr ⟨?_, rfl⟩
    rintro t ⟨bytes, written, hread, -⟩
    exact absurd (hbytes.symm.trans hread) nofun
  | ok bytes =>
    cases hwritten : Utf8.decode? bytes with
    | error e =>
      refine .inr ⟨?_, by simp only [hwritten]; rfl⟩
      rintro t ⟨bytes', written, hread, hdecode, -⟩
      obtain rfl := Except.ok.inj (hbytes.symm.trans hread)
      exact absurd (hwritten.symm.trans hdecode) nofun
    | ok written =>
      exact .inl ⟨_, ⟨bytes, written, hbytes, hwritten, rfl⟩, by simp only [hwritten]⟩

/-- A script that compiles goes on with what is compiled, or ends without requests. -/
theorem run_onCompiled (d : Directory) (replies : List Reply) (result : Except CompileError Compiled)
    (next : Compiled → Script) :
    (∃ compiled, result = .ok compiled ∧
        (onCompiled result next).run d replies = (next compiled).run d replies) ∨
      (∀ compiled, result ≠ .ok compiled) ∧ ((onCompiled result next).run d replies).requests = [] := by
  unfold onCompiled
  split
  · exact .inl ⟨_, rfl, rfl⟩
  · exact .inr ⟨nofun, rfl⟩
  · exact .inr ⟨nofun, rfl⟩

/-! ## What a deployment needs -/

variable {s : Surroundings} {a : Arguments} {d : Directory} {config : DeploymentConfig}
  {compiled : Compiled}

/-- What a case is deployed for. -/
def targetOf (a : Arguments) : DeploymentTarget :=
  ⟨a.getD "app-id" [], a.getD "app-name" [],
    (a.filled? "case-slug").getD (a.getD "case-name" [])⟩

/-- A deployment has what it needs: its settings, and a case that is compiled. -/
structure IsReady (s : Surroundings) (a : Arguments) (d : Directory) (config : DeploymentConfig)
    (compiled : Compiled) : Prop where
  /-- The backend is known. -/
  settings : deploymentConfig s a = .ok config
  /-- The case is compiled from a file. -/
  compiles : ∃ compilation t, Config.ofEnvironment s.environment = .ok compilation ∧
    d.HoldsText (a.getD "file" []) t ∧
    compile compilation (caseOf a) (Logic.parseText t) = .ok compiled

/-- What the program does when a deployment ends. -/
def conclude : Except DeploymentError Json → Script
  | .ok answer => .printLine answer.writeIndented (.finish 0)
  | .error e =>
    if e.isReported then .abort ("Deployment failed: " ++ e.message) else .stop (.deployment e)

/-- The command goes on with the deployment that it is ready for, and sends nothing if it is ready for
none. -/
theorem run_deployScript (s : Surroundings) (a : Arguments) (d : Directory) (replies : List Reply) :
    (∃ config compiled, IsReady s a d config compiled ∧
        (deployScript s a).run d replies =
          (Script.ofExchange conclude (deployCase config (targetOf a) (a.getD "case-name" [])
            compiled.document compiled.logic s.stamp)).run d replies) ∨
      (∀ config compiled, ¬IsReady s a d config compiled) ∧
        ((deployScript s a).run d replies).requests = [] := by
  unfold deployScript
  cases hsettings : deploymentConfig s a with
  | error reason =>
    exact .inr ⟨fun _ _ h => absurd (hsettings.symm.trans h.settings) nofun, rfl⟩
  | ok config =>
  cases henvironment : Config.ofEnvironment s.environment with
  | error e =>
    refine .inr ⟨fun _ _ h => ?_, rfl⟩
    obtain ⟨compilation, t, hcompilation, -⟩ := h.compiles
    exact absurd (henvironment.symm.trans hcompilation) nofun
  | ok compilation =>
  have hready : ∀ {config' compiled}, IsReady s a d config' compiled → ∃ t,
      d.HoldsText (a.getD "file" []) t ∧
        compile compilation (caseOf a) (Logic.parseText t) = .ok compiled := by
    intro config' compiled h
    obtain ⟨compilation', t, hcompilation, ht, hcompiled⟩ := h.compiles
    obtain rfl := Except.ok.inj (henvironment.symm.trans hcompilation)
    exact ⟨t, ht, hcompiled⟩
  rcases run_readText d replies (a.getD "file" []) _ with ⟨t, ht, hrun⟩ | ⟨hnone, hrun⟩
  · rcases run_onCompiled d replies (compile compilation (caseOf a) (Logic.parseText t)) _
      with ⟨compiled, hcompiled, hgo⟩ | ⟨hnone, hgo⟩
    · refine .inl ⟨config, compiled, ⟨hsettings, compilation, t, henvironment, ht, hcompiled⟩, ?_⟩
      exact hrun.trans hgo
    · refine .inr ⟨fun _ compiled h => ?_, (congrArg Run.requests hrun).trans hgo⟩
      obtain ⟨t', ht', hcompiled⟩ := hready h
      obtain rfl := ht.eq ht'
      exact hnone compiled hcompiled
  · refine .inr ⟨fun _ compiled h => ?_, hrun⟩
    obtain ⟨t, ht, -⟩ := hready h
    exact hnone t ht

/-! ## What is reported -/

namespace Run

/-- The program shows the answer to the upload, or reports the error; an error that the client only
passes on stops it. -/
def Reports (r : Run) : Except DeploymentError Json → Prop
  | .ok answer => r.outcome = .ok 0 ∧ r.output = answer.writeIndented ++ "\n"
  | .error e =>
    if e.isReported then r.outcome = .ok 1 ∧ r.notices = "Deployment failed: " ++ e.message ++ "\n"
    else r.outcome = .error (.deployment e)

variable {r : Run} {result : Except DeploymentError Json}

/-- Nothing else stops it. -/
theorem Reports.stopped_iff (h : r.Reports result) :
    (∃ reason, r.outcome = .error reason) ↔ ∃ e, result = .error e ∧ e.isReported = false := by
  rcases result with e | answer
  · rw [Reports] at h
    split at h
    · next he =>
      refine ⟨fun ⟨_, hreason⟩ => absurd (h.1.symm.trans hreason) nofun, ?_⟩
      rintro ⟨e', he', hreported⟩
      rw [← Except.error.inj he', he] at hreported
      cases hreported
    · next he => exact ⟨fun _ => ⟨e, rfl, Bool.eq_false_iff.2 he⟩, fun _ => ⟨_, h⟩⟩
  · exact ⟨fun ⟨_, hreason⟩ => absurd (h.1.symm.trans hreason) nofun, fun ⟨_, he, _⟩ => nomatch he⟩

/-- At its end a deployment is reported, without requests. -/
theorem reports_conclude (d : Directory) (replies : List Reply)
    (result : Except DeploymentError Json) :
    ((conclude result).run d replies).Reports result ∧
      ((conclude result).run d replies).requests = [] := by
  rcases result with e | answer
  · rw [conclude, Reports]
    split
    · exact ⟨⟨rfl, List.append_nil _⟩, rfl⟩
    · exact ⟨rfl, rfl⟩
  · exact ⟨⟨rfl, List.append_nil _⟩, rfl⟩

/-- A script that carries out a deployment sends its requests and reports what comes of it. -/
theorem reports_ofExchange (d : Directory) (replies : List Reply)
    (x : Exchange (Except DeploymentError Json)) :
    ((Script.ofExchange conclude x).run d replies).Reports (x.run replies).1 ∧
      ((Script.ofExchange conclude x).run d replies).requests = (x.run replies).2 := by
  obtain ⟨hreports, hrequests⟩ :=
    reports_conclude d (replies.drop (x.run replies).2.length) (x.run replies).1
  rw [run_ofExchange]
  exact ⟨hreports, (congrArg _ hrequests).trans (List.append_nil _)⟩

end Run

/-- The command that deploys sends nothing if it is not ready.  Otherwise the deployment goes its way,
with the upload first and at most one configuration after it, and what comes of it is reported, except
that the program is stopped exactly if the last request that it sends gets an answer that is no JSON,
or, where the backend refuses, no text.  The document can be uploaded by then. -/
theorem deploy_course (s : Surroundings) (a : Arguments) (d : Directory) (replies : List Reply) :
    let r := (deployScript s a).run d replies
    (r.requests = [] ∧ ∀ config compiled, ¬IsReady s a d config compiled) ∨
      ∃ config compiled result, IsReady s a d config compiled ∧
        Course config (targetOf a) compiled.document compiled.logic (replyAt replies 0)
          (replyAt replies 1) r.requests result ∧
        r.Reports result ∧
        ((∃ reason, r.outcome = .error reason) ↔ (replyAt replies 0).IsUnreadable ∨
          (∃ answer id, (replyAt replies 0).Brings answer ∧ answer.NamesCase id) ∧
            (replyAt replies 1).IsUnreadable) := by
  rcases run_deployScript s a d replies with ⟨config, compiled, hready, hrun⟩ | ⟨hnone, hrun⟩
  · obtain ⟨compilation, t, -, -, hcompiled⟩ := hready.compiles
    have hparsed : compile compilation (caseOf a) (Logic.parse (.str t)) = .ok compiled := hcompiled
    have hcourse := course_deployCase config (targetOf a) (a.getD "case-name" []) compiled.logic
      s.stamp replies (exists_encode_document hparsed)
    obtain ⟨hreports, hrequests⟩ := Run.reports_ofExchange d replies
      (deployCase config (targetOf a) (a.getD "case-name" []) compiled.document compiled.logic s.stamp)
    rw [← hrun] at hreports hrequests
    refine .inr ⟨config, compiled, _, hready, ?_, hreports, ?_⟩
    · rw [hrequests]
      exact hcourse
    · exact hreports.stopped_iff.trans hcourse.isReported_eq_false_iff
  · exact .inl ⟨hrun, hnone⟩

end CasePlan.CommandLine
