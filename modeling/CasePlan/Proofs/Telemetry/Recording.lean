import CasePlan.Telemetry.Recorder
import CasePlan.Proofs.Result

/-!
# What a recorder holds

A recorder enters records in its log and amounts in its metrics, one after another.  What it enters
for an observation depends on the observation only, never on what it holds, so that a run of
observations is a run of entries.

* `Recorder.Observation`, `Recorder.observe`: what can happen and what a recorder makes of it;
  `observe_eq_enterAll`: it makes the entries of the observation.
* `log_observeAll`, `metrics_observeAll`: what a run of observations leaves behind;
  `records_start_observeAll`, `metrics_start_observeAll`: what it leaves of a new recorder.
* `log_observeAll_eq_filter`: a log from a higher level upwards is a part of the log.
* `compile_fst`: what is compiled is the same whether or not it is recorded.
* `Metrics.Separate`, `separate_recordAll`, `histogramCount_recordAll`: there is one series for each
  set of attributes, and the histogram has every amount that is recorded for it.
-/

namespace CasePlan

/-! ## Metrics -/

namespace Metrics

variable {α : Type} {attributes : Attributes} {start : α} {change : α → α}

/-- An amount of a metric. -/
structure Sample where
  /-- The name of the metric. -/
  name : Text
  /-- The amount. -/
  value : Amount
  /-- The attributes. -/
  attributes : Attributes

/-- Keeps the amounts of metrics, from first to last. -/
def recordAll (m : Metrics) (samples : List Sample) : Metrics :=
  samples.foldl (fun m s => m.record s.name s.value s.attributes) m

/-- No series has the attributes of one before it. -/
def AreSeparate (series : List (Attributes × α)) : Prop :=
  series.Pairwise fun a b => Attributes.same a.1 b.1 = false

/-- An update leaves the attributes of every series, and starts one at the end at most. -/
theorem mem_update {series : List (Attributes × α)} {entry : Attributes × α}
    (h : entry ∈ update attributes start change series) :
    entry.1 ∈ series.map Prod.fst ∨ entry.1 = attributes := by
  induction series with
  | nil => exact .inr (congrArg Prod.fst (List.mem_singleton.1 h))
  | cons first rest ih =>
    rw [update] at h
    split at h
    · rcases List.mem_cons.1 h with rfl | h
      · exact .inl (by simp)
      · exact .inl (List.mem_map_of_mem (List.mem_cons_of_mem _ h))
    · rcases List.mem_cons.1 h with rfl | h
      · exact .inl (by simp)
      · exact (ih h).imp_left (List.mem_cons_of_mem _)

theorem areSeparate_update {series : List (Attributes × α)} (h : AreSeparate series) :
    AreSeparate (update attributes start change series) := by
  induction series with
  | nil => exact List.pairwise_singleton _ _
  | cons first rest ih =>
    obtain ⟨hfirst, hrest⟩ := List.pairwise_cons.1 h
    rw [update]
    split
    · exact List.pairwise_cons.2 ⟨hfirst, hrest⟩
    · next hsame =>
      refine List.pairwise_cons.2 ⟨fun entry hentry => ?_, ih hrest⟩
      rcases mem_update hentry with hold | hnew
      · obtain ⟨b, hb, heq⟩ := List.mem_map.1 hold
        exact heq ▸ hfirst b hb
      · exact hnew ▸ Bool.eq_false_iff.2 hsame

/-- Every instrument has one series for each set of attributes. -/
structure Separate (m : Metrics) : Prop where
  /-- The counter has. -/
  sums : AreSeparate m.sums
  /-- The histogram has. -/
  counts : AreSeparate m.counts

theorem separate_record {m : Metrics} (h : m.Separate) (name : Text) (value : Amount)
    (attributes : Attributes) : (m.record name value attributes).Separate := by
  unfold record
  split
  · exact h
  · split
    · exact ⟨areSeparate_update h.sums, h.counts⟩
    · exact ⟨h.sums, areSeparate_update h.counts⟩

theorem separate_recordAll {m : Metrics} (h : m.Separate) (samples : List Sample) :
    (m.recordAll samples).Separate := by
  induction samples generalizing m with
  | nil => exact h
  | cons s samples ih => exact ih (separate_record h s.name s.value s.attributes)

/-- The sum of the values of some series. -/
def total (series : List (Attributes × Nat)) : Nat :=
  series.foldr (fun entry rest => entry.2 + rest) 0

/-- How many amounts the histogram has in all. -/
def histogramCount (m : Metrics) : Nat := total m.counts

/-- Whether the histogram keeps an amount. -/
def Sample.isMeasured (s : Sample) : Bool := !s.value.isNegative && !isCounted s.name s.value

theorem total_cons (entry : Attributes × Nat) (series : List (Attributes × Nat)) :
    total (entry :: series) = entry.2 + total series := rfl

theorem total_update (series : List (Attributes × Nat)) :
    total (update attributes 1 (· + 1) series) = total series + 1 := by
  induction series with
  | nil => rfl
  | cons first rest ih =>
    rw [update]
    split
    · rw [total_cons, total_cons]
      omega
    · rw [total_cons, total_cons, ih]
      omega

theorem histogramCount_record (m : Metrics) (s : Sample) :
    (m.record s.name s.value s.attributes).histogramCount =
      m.histogramCount + (if s.isMeasured then 1 else 0) := by
  unfold record Sample.isMeasured
  cases s.value.isNegative
  · cases isCounted s.name s.value
    · exact total_update m.counts
    · rfl
  · rfl

/-- The histogram has every amount that is recorded for it. -/
theorem histogramCount_recordAll (m : Metrics) (samples : List Sample) :
    (m.recordAll samples).histogramCount =
      m.histogramCount + samples.countP Sample.isMeasured := by
  induction samples generalizing m with
  | nil => rfl
  | cons s samples ih =>
    have hstep := ih (m.record s.name s.value s.attributes)
    rw [histogramCount_record] at hstep
    rw [List.countP_cons]
    show ((m.record s.name s.value s.attributes).recordAll samples).histogramCount = _
    omega

end Metrics

namespace Recorder

variable {r : Recorder}

/-! ## Entries -/

/-- What a recorder enters. -/
inductive Entry where
  /-- A record in the log. -/
  | record (record : Record)
  /-- An amount in the metrics. -/
  | sample (sample : Metrics.Sample)

/-- The record of an entry in the log. -/
def Entry.record? : Entry → Option Record
  | .record x => some x
  | .sample _ => none

/-- The amount of an entry in the metrics. -/
def Entry.sample? : Entry → Option Metrics.Sample
  | .record _ => none
  | .sample s => some s

/-- Makes an entry. -/
def enter (r : Recorder) : Entry → Recorder
  | .record record => r.add record
  | .sample s =>
    if r.config.metrics then { r with metrics := r.metrics.record s.name s.value s.attributes } else r

/-- Makes entries, from first to last. -/
def enterAll (r : Recorder) (entries : List Entry) : Recorder := entries.foldl enter r

theorem enterAll_append (entries more : List Entry) :
    r.enterAll (entries ++ more) = (r.enterAll entries).enterAll more := List.foldl_append

/-- A record below the level of the log changes nothing. -/
theorem add_of_not_admits {record : Record} (h : r.config.level.admits record.level = false) :
    r.add record = r := by
  rw [add, h, if_neg Bool.false_ne_true]

/-- A record from the level of the log upwards becomes the latest. -/
theorem add_of_admits {record : Record} (h : r.config.level.admits record.level = true) :
    r.add record = { r with log := record :: r.log } := by
  rw [add, if_pos h]

theorem config_enter (entry : Entry) : (r.enter entry).config = r.config := by
  cases entry with
  | record record =>
    rw [enter, add]
    split <;> rfl
  | sample s =>
    rw [enter]
    split <;> rfl

/-- Entries do not change the settings. -/
theorem config_enterAll (entries : List Entry) : (r.enterAll entries).config = r.config := by
  induction entries generalizing r with
  | nil => rfl
  | cons entry entries ih => exact (ih (r := r.enter entry)).trans (config_enter entry)

theorem log_enter (entry : Entry) :
    (r.enter entry).log =
      (entry.record?.toList.filter fun x => r.config.level.admits x.level) ++ r.log := by
  cases entry with
  | record record =>
    cases h : r.config.level.admits record.level
    · rw [enter, add_of_not_admits h]
      simp [Entry.record?, h]
    · rw [enter, add_of_admits h]
      simp [Entry.record?, h]
  | sample s =>
    rw [enter]
    split <;> rfl

/-- Entries add to the log the records that its level admits, the latest first. -/
theorem log_enterAll (entries : List Entry) :
    (r.enterAll entries).log =
      ((entries.filterMap Entry.record?).filter fun x => r.config.level.admits x.level).reverse ++
        r.log := by
  induction entries generalizing r with
  | nil => rfl
  | cons entry entries ih =>
    have hstep := ih (r := r.enter entry)
    rw [config_enter, log_enter] at hstep
    refine hstep.trans ?_
    cases h : entry.record? with
    | none => rw [List.filterMap_cons_none h]; rfl
    | some record =>
      rw [List.filterMap_cons_some h, Option.toList_some]
      cases hlevel : r.config.level.admits record.level <;> simp [hlevel]

/-- Entries add to the metrics, if these are kept, the amounts in order. -/
theorem metrics_enterAll (entries : List Entry) :
    (r.enterAll entries).metrics =
      if r.config.metrics then r.metrics.recordAll (entries.filterMap Entry.sample?)
      else r.metrics := by
  induction entries generalizing r with
  | nil => exact (ite_self _).symm
  | cons entry entries ih =>
    have hstep := ih (r := r.enter entry)
    rw [config_enter] at hstep
    refine hstep.trans ?_
    cases entry with
    | record record =>
      have hmetrics : (r.enter (.record record)).metrics = r.metrics := by
        rw [enter, add]
        split <;> rfl
      rw [hmetrics]
      rfl
    | sample s =>
      rw [enter]
      split <;> rfl

/-! ## Observations -/

/-- What a service can observe. -/
inductive Observation where
  /-- Something is logged. -/
  | logged (record : Record)
  /-- A metric has an amount. -/
  | measured (sample : Metrics.Sample)
  /-- A timer runs out. -/
  | timed (name : Text) (seconds : Float)
  /-- A watched function returns. -/
  | executed (f : Watched) (level : Text) (milliseconds : Float) (result? : Option Text)
  /-- A watched function fails. -/
  | failed (f : Watched) (cause : Text)
  /-- A description is compiled for a case. -/
  | compiled (times : CompileTimes) (config : Config) (case? : Except CompileError Case)
    (description : Except ParseError Logic)

/-- What a recorder makes of an observation. -/
def observe (r : Recorder) : Observation → Recorder
  | .logged record => r.add record
  | .measured s => r.metric s.name s.value s.attributes
  | .timed name seconds => r.timer name seconds
  | .executed f level milliseconds result? => (r.executed f level milliseconds result?).2
  | .failed f cause => r.failed f cause
  | .compiled times config case? description => (r.compile times config case? description).2

/-- What a recorder makes of observations, from first to last. -/
def observeAll (r : Recorder) (seen : List Observation) : Recorder := seen.foldl observe r

namespace Observation

/-- The entries for an amount of a metric. -/
def metricEntries (s : Metrics.Sample) : List Entry :=
  [.sample s, .record { level := .debug, message := .metric s.name s.value }]

/-- The entries for the time of something named. -/
def durationEntries (name : Text) (milliseconds : Float) : List Entry :=
  metricEntries ⟨name ++ "_duration", .real milliseconds, []⟩

/-- The entries for a timer that runs out. -/
def timerEntries (name : Text) (seconds : Float) : List Entry :=
  .record { level := .debug, message := .timer name seconds } ::
    durationEntries name (seconds * 1000.0)

/-- The entries for a watched function that returns. -/
def executedEntries (f : Watched) (level : Text) (milliseconds : Float) (result? : Option Text) :
    List Entry :=
  durationEntries f.shortName milliseconds ++
    match Level.ofWord? level with
    | some l => [.record { level := l, message := .executed f.name milliseconds result? }]
    | none => []

/-- The entry for a watched function that fails. -/
def failedEntries (f : Watched) (cause : Text) : List Entry :=
  [.record { level := .error, message := .failed f.name cause }]

/-- The entries for a case that is compiled: the time of writing is kept once there is something to
write. -/
def compiledEntries (times : CompileTimes) (config : Config) (case? : Except CompileError Case)
    (description : Except ParseError Logic) : List Entry :=
  match prepared config case? description with
  | .error e => failedEntries compiler e.message
  | .ok context =>
    timerEntries "xml_generation" times.writing ++
      match Compiled.ofContext context with
      | .error e => failedEntries compiler e.message
      | .ok _ =>
        metricEntries ⟨"compilations_total", .whole 1, [("layout", .str config.layoutMode.word)]⟩ ++
          executedEntries compiler Level.debug.word (times.total * 1000.0) none

/-- The entries for an observation. -/
def entries : Observation → List Entry
  | logged record => [.record record]
  | measured s => metricEntries s
  | timed name seconds => timerEntries name seconds
  | executed f level milliseconds result? => executedEntries f level milliseconds result?
  | failed f cause => failedEntries f cause
  | compiled times config case? description => compiledEntries times config case? description

end Observation

open Observation

theorem metric_eq (r : Recorder) (s : Metrics.Sample) :
    r.metric s.name s.value s.attributes = r.enterAll (metricEntries s) := rfl

theorem timer_eq (r : Recorder) (name : Text) (seconds : Float) :
    r.timer name seconds = r.enterAll (timerEntries name seconds) := rfl

theorem executed_eq (r : Recorder) (f : Watched) (level : Text) (milliseconds : Float)
    (result? : Option Text) :
    (r.executed f level milliseconds result?).2 =
      r.enterAll (executedEntries f level milliseconds result?) := by
  rw [executed, executedEntries, enterAll_append]
  cases Level.ofWord? level <;> rfl

theorem compile_eq (r : Recorder) (times : CompileTimes) (config : Config)
    (case? : Except CompileError Case) (description : Except ParseError Logic) :
    (r.compile times config case? description).2 =
      r.enterAll (compiledEntries times config case? description) := by
  rw [compile, compiledEntries]
  cases prepared config case? description with
  | error e => rfl
  | ok context =>
    dsimp only
    rw [enterAll_append, ← timer_eq]
    cases Compiled.ofContext context with
    | error e => rfl
    | ok compiled =>
      dsimp only
      rw [enterAll_append, ← executed_eq, ← metric_eq]

/-- What is compiled is the same whether or not it is recorded. -/
theorem compile_fst (r : Recorder) (times : CompileTimes) (config : Config)
    (case? : Except CompileError Case) (description : Except ParseError Logic) :
    (r.compile times config case? description).1 = CasePlan.compile config case? description := by
  have hcompile : CasePlan.compile config case? description =
      prepared config case? description >>= Compiled.ofContext := by
    cases case? with
    | error e => rfl
    | ok c =>
      cases description with
      | error e => rfl
      | ok logic => rfl
  rw [hcompile, compile]
  cases prepared config case? description with
  | error e => rfl
  | ok context =>
    rw [ok_bind]
    cases hwritten : Compiled.ofContext context <;> simp only [hwritten]

/-- A recorder makes the entries for an observation, whatever it holds. -/
theorem observe_eq_enterAll (r : Recorder) (o : Observation) :
    r.observe o = r.enterAll o.entries := by
  cases o with
  | logged record => rfl
  | measured s => exact metric_eq r s
  | timed name seconds => exact timer_eq r name seconds
  | executed f level milliseconds result? => exact executed_eq r f level milliseconds result?
  | failed f cause => rfl
  | compiled times config case? description => exact compile_eq r times config case? description

/-! ## Runs -/

/-- A run of observations is a run of entries. -/
theorem observeAll_eq_enterAll (r : Recorder) (seen : List Observation) :
    r.observeAll seen = r.enterAll (seen.flatMap Observation.entries) := by
  induction seen generalizing r with
  | nil => rfl
  | cons o seen ih =>
    rw [List.flatMap_cons, enterAll_append, ← observe_eq_enterAll]
    exact ih (r.observe o)

/-- The records of observations, in order. -/
def recordsOf (seen : List Observation) : List Record :=
  (seen.flatMap Observation.entries).filterMap Entry.record?

/-- The amounts of observations, in order. -/
def samplesOf (seen : List Observation) : List Metrics.Sample :=
  (seen.flatMap Observation.entries).filterMap Entry.sample?

/-- After a run the log has, on top of what it had, the records that its level admits. -/
theorem log_observeAll (seen : List Observation) :
    (r.observeAll seen).log =
      ((recordsOf seen).filter fun x => r.config.level.admits x.level).reverse ++ r.log := by
  rw [observeAll_eq_enterAll, log_enterAll]
  rfl

/-- After a run the metrics have, if they are kept, all amounts of the run. -/
theorem metrics_observeAll (seen : List Observation) :
    (r.observeAll seen).metrics =
      if r.config.metrics then r.metrics.recordAll (samplesOf seen) else r.metrics := by
  rw [observeAll_eq_enterAll, metrics_enterAll]
  rfl

/-- A log from a higher level upwards is a part of the log. -/
theorem log_observeAll_eq_filter {l : Level} (h : r.config.level.rank ≤ l.rank)
    (seen : List Observation) :
    (Recorder.observeAll { r with
        config := { r.config with level := l }
        log := r.log.filter fun x => l.admits x.level } seen).log =
      (r.observeAll seen).log.filter fun x => l.admits x.level := by
  have hadmits : ∀ x : Record, (l.admits x.level && r.config.level.admits x.level) =
      l.admits x.level := by
    intro x
    rw [Bool.and_eq_left_iff_imp]
    intro hl
    exact decide_eq_true (Nat.le_trans h (of_decide_eq_true hl))
  rw [log_observeAll, log_observeAll, List.filter_append, List.filter_reverse, List.filter_filter]
  simp only [hadmits]

/-! ## Runs from the start -/

/-- The record that a recorder starts with. -/
def startRecord (config : RecorderConfig) : Record :=
  { level := .debug, message := .started config.serviceName config.level }

theorem start_eq (config : RecorderConfig) :
    start config = observe { config } (.logged (startRecord config)) := rfl

variable {config : RecorderConfig}

/-- A recorder has every record since its start that its level admits, in order. -/
theorem records_start_observeAll (seen : List Observation) :
    ((start config).observeAll seen).records =
      (startRecord config :: recordsOf seen).filter fun x => config.level.admits x.level := by
  have hrun : (start config).observeAll seen =
      observeAll { config } (.logged (startRecord config) :: seen) := rfl
  rw [hrun, records, log_observeAll, List.append_nil, List.reverse_reverse]
  rfl

/-- Its histogram has every duration since then, if metrics are kept, and its instruments have one
series for each set of attributes. -/
theorem metrics_start_observeAll (seen : List Observation) :
    ((start config).observeAll seen).metrics.Separate ∧
      ((start config).observeAll seen).metrics.histogramCount =
        if config.metrics then (samplesOf seen).countP Metrics.Sample.isMeasured else 0 := by
  have hstart : (start config).metrics = {} := by
    rw [start_eq, observe_eq_enterAll, metrics_enterAll]
    exact ite_self _
  have hconfig : (start config).config = config := by
    rw [start_eq, observe_eq_enterAll, config_enterAll]
  have hseparate : ({} : Metrics).Separate := ⟨.nil, .nil⟩
  rw [metrics_observeAll, hstart, hconfig]
  split
  · refine ⟨Metrics.separate_recordAll hseparate _, ?_⟩
    rw [Metrics.histogramCount_recordAll]
    exact Nat.zero_add _
  · exact ⟨hseparate, rfl⟩

end Recorder

end CasePlan
