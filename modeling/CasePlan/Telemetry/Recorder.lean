import CasePlan.Compilation
import CasePlan.Telemetry.Metric

/-!
# Recording what happens

A `Recorder` holds the settings of a service, its log and its metrics.  Whatever is observed is
recorded by a function from recorder to recorder; how long it took is measured outside.

* `Recorder.metric`, `timer` and `executed` record amounts, times and calls of functions.
* `Recorder.compile` compiles a case and records the time it takes, and the time that writing the
  document takes.
-/

namespace CasePlan

/-- What is recorded, and how. -/
structure RecorderConfig where
  /-- The name of the service. -/
  serviceName : Text := "cmmn-compiler"
  /-- The least level in the log. -/
  level : Level := .info
  /-- Whether records are written as JSON. -/
  structured : Bool := false
  /-- Whether spans are traced. -/
  tracing : Bool := true
  /-- Whether metrics are kept. -/
  metrics : Bool := true

/-- The log and the metrics of a service. -/
structure Recorder where
  /-- The settings. -/
  config : RecorderConfig
  /-- The log, the latest record first. -/
  log : List Record := []
  /-- The metrics. -/
  metrics : Metrics := {}

namespace Recorder

/-- Adds a record to the log if its level belongs there. -/
def add (r : Recorder) (record : Record) : Recorder :=
  if r.config.level.admits record.level then { r with log := record :: r.log } else r

/-- Adds a message. -/
def say (r : Recorder) (level : Level) (message : Message) : Recorder := r.add { level, message }

/-- A new recorder. -/
def start (config : RecorderConfig) : Recorder :=
  say { config } .debug (.started config.serviceName config.level)

/-- The records from first to last. -/
def records (r : Recorder) : List Record := r.log.reverse

/-- Records an amount of a metric. -/
def metric (r : Recorder) (name : Text) (value : Amount) (attributes : Attributes) : Recorder :=
  let kept := if r.config.metrics then
      { r with metrics := r.metrics.record name value attributes }
    else r
  kept.say .debug (.metric name value)

/-- Records the time of something named. -/
def duration (r : Recorder) (name : Text) (milliseconds : Float) : Recorder :=
  r.metric (name ++ "_duration") (.real milliseconds) []

/-- Records that a timer has run out. -/
def timer (r : Recorder) (name : Text) (seconds : Float) : Recorder :=
  (r.say .debug (.timer name seconds)).duration name (seconds * 1000.0)

/-- Records an exception that was caught. -/
def caught (r : Recorder) (message : Text) (raised : Raised) : Recorder :=
  r.add { level := .error, message := .plain message, raised? := some raised }

/-- A function that is watched: its name and the last part of it. -/
structure Watched where
  /-- The whole name. -/
  name : Text
  /-- The last part of the name. -/
  shortName : Text

/-- Records that a watched function has returned.  The time is recorded even if the word for the
level means none, which is then an error. -/
def executed (r : Recorder) (f : Watched) (level : Text) (milliseconds : Float)
    (result? : Option Text) : Except Text Unit × Recorder :=
  let r := r.duration f.shortName milliseconds
  match Level.ofWord? level with
  | some l => (.ok (), r.say l (.executed f.name milliseconds result?))
  | none => (.error (Level.unknownMessage level), r)

/-- Records that a watched function has failed. -/
def failed (r : Recorder) (f : Watched) (cause : Text) : Recorder :=
  r.say .error (.failed f.name cause)

/-! ## Compiling -/

/-- The compiler as a watched function. -/
def compiler : Watched where
  name := "cmmn_compiler.compiler.orchestrator.CMMNCompiler.compile"
  shortName := "compile"

/-- How long the parts of a compilation take, in seconds. -/
structure CompileTimes where
  /-- Writing the document. -/
  writing : Float := 0.0
  /-- All of it. -/
  total : Float := 0.0

/-- What the document of a case is made from, before it is written. -/
def prepared (config : Config) (case? : Except CompileError Case)
    (description : Except ParseError Logic) : Except CompileError (Document.Context Rat) := do
  let c ← case?
  let logic ← description.mapError .input
  prepare config c logic

/-- Compiles a description for a case and records it. -/
def compile (r : Recorder) (times : CompileTimes) (config : Config)
    (case? : Except CompileError Case) (description : Except ParseError Logic) :
    Except CompileError Compiled × Recorder :=
  match prepared config case? description with
  | .error e => (.error e, r.failed compiler e.message)
  | .ok context =>
    let r := r.timer "xml_generation" times.writing
    match Compiled.ofContext context with
    | .error e => (.error e, r.failed compiler e.message)
    | .ok compiled =>
      let r := r.metric "compilations_total" (.whole 1)
        [("layout", .str config.layoutMode.word)]
      let r := (r.executed compiler Level.debug.word (times.total * 1000.0) none).2
      (.ok compiled, r)

end Recorder

end CasePlan
