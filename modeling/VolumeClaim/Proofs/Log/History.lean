import Mathlib.Data.List.DropRight
import Mathlib.Data.List.Induction
import VolumeClaim.Log

/-!
# The logger in the course of a run

A run starts loggers, stops them and records messages, in any order.  What was done so far tells the
logger that is in place: the last one that was started since the last stop, else the standard one if
a message was recorded since then, else none.

* `Chosen`, `Asked`     which texts and which logger environment and settings ask for;
* `configured_eq_ok_iff`, `configured_eq_error_iff` what `configured` makes of that;
* `Log.Step`, `answer`, `after` the steps of a run, and the logger after them;
* `inForce`             the logger, read off the steps alone;
* `logger_in_force`     the two are the same at any time, and what each next step does.
-/

namespace VolumeClaim

namespace Level

def names : Level → List Text
  | warning => [ascii "warning", ascii "warn"]
  | error => [ascii "error", ascii "err"]
  | level => [level.name]

theorem name_mem_names (level : Level) : level.name ∈ level.names := by
  cases level <;> exact List.mem_cons_self

theorem ofName?_of_mem_names {level : Level} {t : Text} (h : t ∈ level.names) :
    ofName? t = some level := by
  have hall : ∀ level ∈ all, ∀ name ∈ level.names, ofName? name = some level := by decide
  have hlevel : level ∈ all := by cases level <;> decide
  exact hall level hlevel t h

theorem mem_names_of_ofName? {level : Level} {t : Text} (h : ofName? t = some level) :
    t ∈ level.names := by
  unfold ofName? at h
  split at h
  · rename_i ht
    cases h
    rw [ht]
    decide
  split at h
  · rename_i ht
    cases h
    rw [ht]
    decide
  · have hname : level.name = t := by simpa using List.find?_some h
    rw [← hname]
    exact name_mem_names level

theorem ofName?_eq_some_iff {level : Level} {t : Text} :
    ofName? t = some level ↔ t ∈ level.names := ⟨mem_names_of_ofName?, ofName?_of_mem_names⟩

theorem ofName?_eq_none_iff {t : Text} : ofName? t = none ↔ ∀ level : Level, t ∉ level.names := by
  rw [Option.eq_none_iff_forall_ne_some]
  exact forall_congr' fun level => not_congr ofName?_eq_some_iff

end Level

namespace Log

/-! ## What is asked for -/

/-- whether a variable is not set, or set to nothing -/
def Unset (env : Environment) (name : Text) : Prop :=
  env.lookup name = none ∨ env.lookup name = some []

/-- the text that counts: that of the variable, else the configured one, else the standard -/
inductive Chosen (env : Environment) (name configured standard : Text) : Text → Prop
  | ofVariable {t : Text} (h : env.lookup name = some t) (hne : t ≠ []) :
    Chosen env name configured standard t
  | ofSettings (unset : Unset env name) (hne : configured ≠ []) :
    Chosen env name configured standard configured
  | ofStandard (unset : Unset env name) (h : configured = []) :
    Chosen env name configured standard standard

theorem value?_of_unset {env : Environment} {name : Text} (h : Unset env name) :
    env.value? name = none := by
  unfold Environment.value?
  rcases h with h | h <;> rw [h]

theorem value?_of_lookup {env : Environment} {name t : Text} (h : env.lookup name = some t)
    (hne : t ≠ []) : env.value? name = some t := by
  unfold Environment.value?
  rw [h]
  cases t with
  | nil => exact absurd rfl hne
  | cons b t => rfl

section
variable {env : Environment} {name configured standard t : Text}

theorem Chosen.choose_eq (h : Chosen env name configured standard t) :
    choose env name configured standard = t := by
  unfold choose
  cases h with
  | ofVariable h hne => rw [value?_of_lookup h hne]
  | ofSettings unset hne =>
    rw [value?_of_unset unset]
    exact if_neg hne
  | ofStandard unset h =>
    rw [value?_of_unset unset]
    exact if_pos h

theorem chosen_choose (env : Environment) (name configured standard : Text) :
    Chosen env name configured standard (choose env name configured standard) := by
  have hunset : Unset env name → Chosen env name configured standard
      (if configured = [] then standard else configured) := by
    intro unset
    by_cases h : configured = []
    · rw [if_pos h]
      exact .ofStandard unset h
    · rw [if_neg h]
      exact .ofSettings unset h
  unfold choose
  cases hlookup : env.lookup name with
  | none =>
    rw [value?_of_unset (.inl hlookup)]
    exact hunset (.inl hlookup)
  | some value =>
    by_cases hne : value = []
    · rw [hne] at hlookup
      rw [value?_of_unset (.inr hlookup)]
      exact hunset (.inr hlookup)
    · rw [value?_of_lookup hlookup hne]
      exact .ofVariable hlookup hne

end

/-- environment and settings ask for this logger -/
structure Asked (env : Environment) (s : Settings) (logger : Logger) : Prop where
  level : ∃ name ∈ logger.level.names, Chosen env levelVariable s.level standardLevel name
  pattern : Chosen env patternVariable s.pattern standardPattern logger.pattern

/-- they ask for a level that there is not, by this name -/
def AskedUnknown (env : Environment) (s : Settings) (name : Text) : Prop :=
  Chosen env levelVariable s.level standardLevel name ∧ ∀ level : Level, name ∉ level.names

theorem configured_of_named {env : Environment} {s : Settings} {level : Level}
    (h : Level.ofName? (choose env levelVariable s.level standardLevel) = some level) :
    configured env s =
      .ok ⟨level, choose env patternVariable s.pattern standardPattern⟩ := by
  simp only [configured, h]

theorem configured_of_unknown {env : Environment} {s : Settings}
    (h : Level.ofName? (choose env levelVariable s.level standardLevel) = none) :
    configured env s =
      .error (.unknownLevel (choose env levelVariable s.level standardLevel)) := by
  simp only [configured, h]

theorem configured_eq_ok_iff {env : Environment} {s : Settings} {logger : Logger} :
    configured env s = .ok logger ↔ Asked env s logger := by
  constructor
  · intro h
    cases hname : Level.ofName? (choose env levelVariable s.level standardLevel) with
    | none =>
      rw [configured_of_unknown hname] at h
      cases h
    | some level =>
      rw [configured_of_named hname] at h
      cases h
      exact ⟨⟨_, Level.mem_names_of_ofName? hname, chosen_choose _ _ _ _⟩, chosen_choose _ _ _ _⟩
  · intro h
    obtain ⟨⟨name, hname, hlevel⟩, hpattern⟩ := h
    have hnamed := Level.ofName?_of_mem_names hname
    rw [← hlevel.choose_eq] at hnamed
    rw [configured_of_named hnamed, hpattern.choose_eq]

theorem configured_eq_error_iff {env : Environment} {s : Settings} {name : Text} :
    configured env s = .error (.unknownLevel name) ↔ AskedUnknown env s name := by
  constructor
  · intro h
    cases hname : Level.ofName? (choose env levelVariable s.level standardLevel) with
    | none =>
      rw [configured_of_unknown hname] at h
      cases h
      exact ⟨chosen_choose _ _ _ _, Level.ofName?_eq_none_iff.mp hname⟩
    | some level =>
      rw [configured_of_named hname] at h
      cases h
  · intro h
    obtain ⟨hlevel, hunknown⟩ := h
    have hnone := Level.ofName?_eq_none_iff.mpr hunknown
    rw [← hlevel.choose_eq] at hnone
    rw [configured_of_unknown hnone, hlevel.choose_eq]

/-! ## Steps -/

inductive Step where
  | start (s : Settings)
  | stop
  | record (level : Level) (message : Text) (fields : List LogField)

namespace Step

def isStop : Step → Bool
  | stop => true
  | _ => false

def isRecord : Step → Bool
  | record _ _ _ => true
  | _ => false

/-- the logger that a step puts in place -/
def started? (env : Environment) : Step → Option Logger
  | start s => (configured env s).toOption
  | _ => none

theorem started?_of_ok {env : Environment} {s : Settings} {logger : Logger}
    (h : configured env s = .ok logger) : started? env (.start s) = some logger := by
  rw [started?, h]
  rfl

theorem started?_of_error {env : Environment} {s : Settings} {fault : Fault}
    (h : configured env s = .error fault) : started? env (.start s) = none := by
  rw [started?, h]
  rfl

theorem started?_eq_some_iff {env : Environment} {s : Settings} {logger : Logger} :
    started? env (.start s) = some logger ↔ Asked env s logger := by
  rw [← configured_eq_ok_iff]
  cases h : configured env s with
  | ok started => rw [started?_of_ok h, Option.some.injEq, Except.ok.injEq]
  | error fault =>
    rw [started?_of_error h]
    constructor
    · intro hstarted
      cases hstarted
    · intro hok
      cases hok

end Step

inductive Reply where
  | started (result : Except Fault Unit)
  | stopped
  | recorded (entries : List LogEntry)

section
variable (env : Environment)

/-- what comes of a step, and the logger afterwards -/
def answer (logger : Option Logger) : Step → Reply × Option Logger
  | .start s => (.started (start env s logger).1, (start env s logger).2)
  | .stop => (.stopped, stop logger)
  | .record level message fields =>
    (.recorded (record logger level message fields).2, (record logger level message fields).1)

/-- the logger after some steps, from none at all -/
def after (past : List Step) : Option Logger :=
  past.foldl (fun logger step => (answer env logger step).2) none

theorem after_concat (past : List Step) (step : Step) :
    after env (past ++ [step]) = (answer env (after env past) step).2 := by
  unfold after
  rw [List.foldl_append]
  rfl

/-- the steps since the last stop -/
def sinceStop (past : List Step) : List Step := past.rtakeWhile fun step => !step.isStop

/-- the last logger that was started since the last stop -/
def lastStarted (past : List Step) : Option Logger :=
  ((sinceStop past).filterMap (Step.started? env)).getLast?

/-- whether a message was recorded since the last stop -/
def hasRecorded (past : List Step) : Bool := (sinceStop past).any Step.isRecord

/-- the logger, read off the steps: the last one that was started since the last stop, else the
standard one if a message was recorded since then, else none -/
def inForce (past : List Step) : Option Logger :=
  (lastStarted env past).or (if hasRecorded past then some standard else none)

/-! ## One more step -/

section
variable {past : List Step} {step : Step} (h : step.isStop = false)
include h

theorem sinceStop_concat : sinceStop (past ++ [step]) = sinceStop past ++ [step] :=
  List.rtakeWhile_concat_pos _ _ _ (by rw [h]; rfl)

theorem lastStarted_concat :
    lastStarted env (past ++ [step]) = (step.started? env).or (lastStarted env past) := by
  unfold lastStarted
  rw [sinceStop_concat h, List.filterMap_append]
  cases hstarted : step.started? env with
  | none =>
    rw [List.filterMap_cons_none hstarted, List.filterMap_nil, List.append_nil, Option.none_or]
  | some logger =>
    rw [List.filterMap_cons_some hstarted, List.filterMap_nil, List.getLast?_concat,
      Option.some_or]

theorem hasRecorded_concat :
    hasRecorded (past ++ [step]) = (hasRecorded past || step.isRecord) := by
  unfold hasRecorded
  rw [sinceStop_concat h, List.any_append, List.any_cons, List.any_nil, Bool.or_false]

end

theorem inForce_stop (past : List Step) : inForce env (past ++ [.stop]) = none := by
  have hsince : sinceStop (past ++ [.stop]) = [] :=
    List.rtakeWhile_concat_neg _ _ _ Bool.false_ne_true
  unfold inForce lastStarted hasRecorded
  rw [hsince]
  rfl

theorem inForce_start_of_ok (past : List Step) {s : Settings} {logger : Logger}
    (h : configured env s = .ok logger) : inForce env (past ++ [.start s]) = some logger := by
  rw [inForce, lastStarted_concat env rfl, Step.started?_of_ok h, Option.some_or, Option.some_or]

theorem inForce_start_of_error (past : List Step) {s : Settings} {fault : Fault}
    (h : configured env s = .error fault) :
    inForce env (past ++ [.start s]) = inForce env past := by
  have hrecord : Step.isRecord (.start s) = false := rfl
  rw [inForce, lastStarted_concat env rfl, hasRecorded_concat rfl, Step.started?_of_error h,
    Option.none_or, hrecord, Bool.or_false, inForce]

theorem inForce_record (past : List Step) (level : Level) (message : Text)
    (fields : List LogField) : inForce env (past ++ [.record level message fields]) =
      some ((inForce env past).getD standard) := by
  have hstarted : Step.started? env (.record level message fields) = none := rfl
  have hrecord : Step.isRecord (.record level message fields) = true := rfl
  rw [inForce, lastStarted_concat env rfl, hasRecorded_concat rfl, hstarted, Option.none_or,
    hrecord, Bool.or_true, if_pos rfl, inForce]
  cases lastStarted env past with
  | some logger => rfl
  | none => cases hasRecorded past <;> rfl

theorem start_of_ok {s : Settings} {logger : Logger} (h : configured env s = .ok logger)
    (current : Option Logger) : start env s current = (.ok (), some logger) := by
  rw [start, h]

theorem start_of_error {s : Settings} {fault : Fault} (h : configured env s = .error fault)
    (current : Option Logger) : start env s current = (.error fault, current) := by
  rw [start, h]

/-- a step takes the logger that the steps so far tell to the one that is told with it -/
theorem answer_inForce (past : List Step) (step : Step) :
    (answer env (inForce env past) step).2 = inForce env (past ++ [step]) := by
  cases step with
  | start s =>
    cases h : configured env s with
    | ok logger => rw [answer, start_of_ok env h, inForce_start_of_ok env past h]
    | error fault => rw [answer, start_of_error env h, inForce_start_of_error env past h]
  | stop => exact (inForce_stop env past).symm
  | record level message fields => exact (inForce_record env past level message fields).symm

/-! ## Any number of steps -/

theorem after_eq_inForce (past : List Step) : after env past = inForce env past := by
  induction past using List.reverseRecOn with
  | nil => rfl
  | append_singleton past step ih => rw [after_concat, ih, answer_inForce]

/-- **The logger at any time** is the one that the steps so far tell.  A start puts the logger in
place that environment and settings ask for; if they ask for a level that there is not, it fails
with the name of that level and leaves the logger that was there.  A message is recorded if its
level is at or above that of the logger, which is the standard one if there was none. -/
theorem logger_in_force (past : List Step) :
    after env past = inForce env past ∧
      (∀ s logger, Step.started? env (.start s) = some logger ↔ Asked env s logger) ∧
      (∀ s logger, Asked env s logger →
        answer env (after env past) (.start s) = (.started (.ok ()), some logger)) ∧
      (∀ s name, AskedUnknown env s name → answer env (after env past) (.start s) =
        (.started (.error (.unknownLevel name)), after env past)) ∧
      (∀ s, (∃ logger, Asked env s logger) ∨ ∃ name, AskedUnknown env s name) ∧
      ∀ level message fields, ∃ logger,
        inForce env (past ++ [.record level message fields]) = some logger ∧
        answer env (after env past) (.record level message fields) =
          (.recorded
            (if logger.level.rank ≤ level.rank then [⟨level, line message fields⟩] else []),
            some logger) := by
  refine ⟨after_eq_inForce env past, fun _ _ => Step.started?_eq_some_iff, ?_, ?_, ?_, ?_⟩
  · intro s logger h
    rw [answer, start_of_ok env (configured_eq_ok_iff.mpr h)]
  · intro s name h
    rw [answer, start_of_error env (configured_eq_error_iff.mpr h)]
  · intro s
    cases h : configured env s with
    | ok logger => exact .inl ⟨logger, configured_eq_ok_iff.mp h⟩
    | error fault =>
      obtain ⟨name⟩ := fault
      exact .inr ⟨name, configured_eq_error_iff.mp h⟩
  · intro level message fields
    refine ⟨(inForce env past).getD standard, inForce_record env past level message fields, ?_⟩
    rw [after_eq_inForce, answer, record, accepts]
    simp only [decide_eq_true_eq]

end

def debugSettings : Settings := ⟨ascii "debug", [], [], []⟩

def loudSettings : Settings := ⟨ascii "loud", [], [], []⟩

/-- a variable that is set to nothing -/
def blankEnvironment : Environment := [(levelVariable, [])]

/-- the first logger is gone, the standard one is replaced, and a start that fails changes nothing -/
def busyPast : List Step :=
  [.start debugSettings, .stop, .record .info [] [], .start debugSettings, .start loudSettings]

theorem asked_debugSettings : Asked blankEnvironment debugSettings ⟨.debug, standardPattern⟩ where
  level := ⟨ascii "debug", by decide, .ofSettings (.inr rfl) (by decide)⟩
  pattern := .ofStandard (.inl rfl) rfl

theorem askedUnknown_loudSettings : AskedUnknown blankEnvironment loudSettings (ascii "loud") := by
  refine ⟨.ofSettings (.inr rfl) (by decide), ?_⟩
  rw [← Level.ofName?_eq_none_iff]
  decide

theorem logger_in_force_busyPast :
    Asked blankEnvironment debugSettings ⟨.debug, standardPattern⟩ ∧
      AskedUnknown blankEnvironment loudSettings (ascii "loud") ∧
      after blankEnvironment busyPast = some ⟨.debug, standardPattern⟩ ∧
      answer blankEnvironment (after blankEnvironment busyPast) (.start debugSettings) =
        (.started (.ok ()), some ⟨.debug, standardPattern⟩) ∧
      answer blankEnvironment (after blankEnvironment busyPast) (.start loudSettings) =
        (.started (.error (.unknownLevel (ascii "loud"))), some ⟨.debug, standardPattern⟩) ∧
      answer blankEnvironment (after blankEnvironment busyPast) (.record .trace [] []) =
        (.recorded [], some ⟨.debug, standardPattern⟩) := by
  obtain ⟨hafter, -, hstart, hrefuse, -, hrecord⟩ := logger_in_force blankEnvironment busyPast
  have hforce : inForce blankEnvironment busyPast = some ⟨.debug, standardPattern⟩ := by decide
  rw [hforce] at hafter
  have hstarted := hstart _ _ asked_debugSettings
  have hrefused := hrefuse _ _ askedUnknown_loudSettings
  obtain ⟨logger, hlogger, hrecorded⟩ := hrecord .trace [] []
  have hsame : inForce blankEnvironment (busyPast ++ [.record .trace [] []]) =
      some ⟨.debug, standardPattern⟩ := by decide
  rw [hsame] at hlogger
  cases hlogger
  rw [hafter] at hstarted hrefused hrecorded
  rw [hafter]
  exact ⟨asked_debugSettings, askedUnknown_loudSettings, rfl, hstarted, hrefused, hrecorded⟩

end Log
end VolumeClaim
