import Mathlib.Data.List.Basic
import Mathlib.Data.List.TakeWhile
import Mathlib.Tactic.Common
import CommandVetting.Cli.Run

/-!
# Command lines

A command line is read from left to right by a reader with two kinds of states: before the command and
after it. What one unit does to the state is said once; whatever holds of a whole command line is proved
from one unit to the next.

* `ArgState`, `ArgState.Takes`, `ArgState.Reads`: a state, **what one unit does to it**, and what a list
  of units does;
* **`ArgState.read_eq_ok_iff`**: the readers of a command line are this one;
* `ArgToken.IsFront`: the arguments up to a place between two units; `IsFront.scan_append`: **the units on
  its two sides**;
* `ArgToken.GivesLogDir`: the two ways to name a log directory, which make one unit.
-/

namespace CommandVetting

theorem bind_eq_ok {ε α β : Type} {x : Except ε α} {f : α → Except ε β} {b : β} :
    x >>= f = .ok b ↔ ∃ a, x = .ok a ∧ f a = .ok b := by
  cases x with
  | ok a => exact ⟨fun h => ⟨a, rfl, h⟩, fun ⟨_, ha, h⟩ => Except.ok.inj ha ▸ h⟩
  | error e => exact ⟨fun h => (nomatch h), fun ⟨_, ha, _⟩ => (nomatch ha)⟩

/-! ## States -/

/-- How far a command line has been read. -/
inductive ArgState where
  | before (g : Globals)
  /-- The command has been read, with the options before it. -/
  | after (outer : Globals) (name : CommandName) (o : Operands)

/-- What a unit that may stand on either side of the command does to the options. -/
inductive Globals.Takes : Globals → ArgToken → Globals → Prop where
  | json {g : Globals} (h : g.json = false) : Takes g .json { g with json := true }
  | logDir {g : Globals} {d : Text} (h : g.logDir = none) :
    Takes g (.logDir d) { g with logDir := some d }

theorem Globals.addJson_eq_ok_iff {g g' : Globals} : g.addJson = .ok g' ↔ g.Takes .json g' := by
  constructor
  · intro h
    rw [addJson] at h
    split at h
    · cases h
    · next hj =>
      cases h
      exact .json (Bool.not_eq_true _ ▸ hj)
  · rintro (hj | _)
    simp [addJson, hj]

theorem Globals.addLogDir_eq_ok_iff {g g' : Globals} {d : Text} :
    g.addLogDir d = .ok g' ↔ g.Takes (.logDir d) g' := by
  constructor
  · intro h
    rw [addLogDir] at h
    split at h
    · cases h
    · next hd =>
      cases h
      exact .logDir (Option.not_isSome_iff_eq_none.mp hd)
  · rintro (_ | hd)
    simp [addLogDir, hd]

namespace ArgState

/-- The options that have been read. -/
def globals : ArgState → Globals
  | before g => g
  | after outer _ o => outer.merge o.globals

/-- The invocation, if the command line ends here. -/
def invocation? : ArgState → Option Invocation
  | before _ => none
  | after outer name o => (o.command? name).toOption.map fun c =>
      ⟨(outer.merge o.globals).json, (outer.merge o.globals).logDir, c⟩

/-- Reads the rest of a command line. -/
def read : ArgState → List ArgToken → Except UsageError Request
  | before g => Request.readGlobals g
  | after outer name o => Request.readOperands outer name o

/-- What a unit does. -/
inductive Takes : ArgState → ArgToken → ArgState → Prop where
  | outer {g g' : Globals} {t : ArgToken} (h : g.Takes t g') : Takes (before g) t (before g')
  | command {g : Globals} {w : Text} {name : CommandName} (h : CommandName.ofWord? w = some name) :
    Takes (before g) (.operand w) (after g name .empty)
  | inner {outer : Globals} {name : CommandName} {o : Operands} {g : Globals} {t : ArgToken}
    (h : o.globals.Takes t g) : Takes (after outer name o) t (after outer name { o with globals := g })
  | stdin {outer : Globals} {o : Operands} (h : o.stdin = false) :
    Takes (after outer .audit o) .stdin (after outer .audit { o with stdin := true })
  | endOfOptions {outer : Globals} {name : CommandName} {o : Operands} :
    Takes (after outer name o) .endOfOptions (after outer name o)
  | operand {outer : Globals} {name : CommandName} {o : Operands} {w : Text}
    (hn : name.takesOperand = true) (h : o.operand = none) :
    Takes (after outer name o) (.operand w) (after outer name { o with operand := some w })

/-- What units do, one after the other. -/
inductive Reads : ArgState → List ArgToken → ArgState → Prop where
  | nil {st : ArgState} : Reads st [] st
  | cons {st st' st'' : ArgState} {t : ArgToken} {ts : List ArgToken} (h : st.Takes t st')
    (hs : Reads st' ts st'') : Reads st (t :: ts) st''

/-! ## The readers of a command line -/

section Readers

variable {st : ArgState} {t : ArgToken} {ts : List ArgToken} {i : Invocation}

/-- A request for help is no invocation. -/
theorem readHelp_ne_perform : Request.readHelp ts ≠ .ok (.perform i) := by
  unfold Request.readHelp
  split <;> simp
  split <;> simp

theorem read_nil_iff : st.read [] = .ok (.perform i) ↔ st.invocation? = some i := by
  cases st with
  | before g => simp [read, Request.readGlobals, invocation?]
  | after outer name o =>
    simp only [read, Request.readOperands, invocation?]
    rw [bind_eq_ok]
    cases o.command? name <;> simp [Except.toOption, pure, Except.pure]

/-- A reader that goes on has done with the unit what is to be done. -/
theorem exists_takes_of_read (h : st.read (t :: ts) = .ok (.perform i)) :
    ∃ st', st.Takes t st' ∧ st'.read ts = .ok (.perform i) := by
  cases st with
  | before g =>
    cases t with
    | json =>
      obtain ⟨g', hg, h⟩ := bind_eq_ok.mp h
      exact ⟨_, .outer (Globals.addJson_eq_ok_iff.mp hg), h⟩
    | logDir d =>
      obtain ⟨g', hg, h⟩ := bind_eq_ok.mp h
      exact ⟨_, .outer (Globals.addLogDir_eq_ok_iff.mp hg), h⟩
    | operand w =>
      simp only [read, Request.readGlobals] at h
      split at h
      · exact absurd h readHelp_ne_perform
      · split at h
        · next name hw => exact ⟨_, .command hw, h⟩
        · cases h
    | stdin | help | version | endOfOptions | bad => cases h
  | after outer name o =>
    cases t with
    | json =>
      obtain ⟨g', hg, h⟩ := bind_eq_ok.mp h
      exact ⟨_, .inner (Globals.addJson_eq_ok_iff.mp hg), h⟩
    | logDir d =>
      obtain ⟨g', hg, h⟩ := bind_eq_ok.mp h
      exact ⟨_, .inner (Globals.addLogDir_eq_ok_iff.mp hg), h⟩
    | stdin =>
      simp only [read, Request.readOperands] at h
      split at h
      · cases h
      · split at h
        · cases h
        · next hname hs =>
          obtain rfl : name = .audit := by simpa using hname
          exact ⟨_, .stdin (Bool.not_eq_true _ ▸ hs), h⟩
    | operand w =>
      simp only [read, Request.readOperands] at h
      split at h
      · next hw =>
        rw [Bool.and_eq_true, Option.isNone_iff_eq_none] at hw
        exact ⟨_, .operand hw.1 hw.2, h⟩
      · cases h
    | endOfOptions => exact ⟨_, .endOfOptions, h⟩
    | help | version | bad => cases h

theorem Takes.read {st' : ArgState} (ht : st.Takes t st') (h : st'.read ts = .ok (.perform i)) :
    st.read (t :: ts) = .ok (.perform i) := by
  cases ht with
  | outer hg =>
    cases hg with
    | json hj => exact bind_eq_ok.mpr ⟨_, Globals.addJson_eq_ok_iff.mpr (.json hj), h⟩
    | logDir hd => exact bind_eq_ok.mpr ⟨_, Globals.addLogDir_eq_ok_iff.mpr (.logDir hd), h⟩
  | inner hg =>
    cases hg with
    | json hj => exact bind_eq_ok.mpr ⟨_, Globals.addJson_eq_ok_iff.mpr (.json hj), h⟩
    | logDir hd => exact bind_eq_ok.mpr ⟨_, Globals.addLogDir_eq_ok_iff.mpr (.logDir hd), h⟩
  | @command g w name hw =>
    have hhelp : CommandName.ofWord? "help" = none := by decide
    have hne : ¬(w == ("help" : Text)) = true := by
      rw [beq_iff_eq]
      rintro rfl
      cases hhelp.symm.trans hw
    rw [read, Request.readGlobals, if_neg hne, hw]
    exact h
  | stdin hs => simpa [read, Request.readOperands, hs] using h
  | endOfOptions => exact h
  | operand hn ho => simpa [read, Request.readOperands, hn, ho] using h

/-- **Reading the first unit.** -/
theorem read_cons_iff : st.read (t :: ts) = .ok (.perform i) ↔
    ∃ st', st.Takes t st' ∧ st'.read ts = .ok (.perform i) :=
  ⟨exists_takes_of_read, fun ⟨_, ht, h⟩ => ht.read h⟩

/-- **The readers of a command line** are the one that goes from one state to the next. -/
theorem read_eq_ok_iff : st.read ts = .ok (.perform i) ↔
    ∃ st', st.Reads ts st' ∧ st'.invocation? = some i := by
  induction ts generalizing st with
  | nil =>
    rw [read_nil_iff]
    constructor
    · exact fun h => ⟨st, .nil, h⟩
    · rintro ⟨st', hs, h⟩
      cases hs
      exact h
  | cons t ts ih =>
    rw [read_cons_iff]
    constructor
    · rintro ⟨st', ht, h⟩
      obtain ⟨st'', hs, h⟩ := ih.mp h
      exact ⟨st'', .cons ht hs, h⟩
    · rintro ⟨st'', hs, h⟩
      cases hs with
      | cons ht hs => exact ⟨_, ht, ih.mpr ⟨st'', hs, h⟩⟩

end Readers

theorem Reads.append {st st₁ st₂ : ArgState} {ts us : List ArgToken} (h : st.Reads ts st₁)
    (h' : st₁.Reads us st₂) : st.Reads (ts ++ us) st₂ := by
  induction h with
  | nil => exact h'
  | cons ht _ ih => exact .cons ht (ih h')

theorem reads_append_iff {st st₂ : ArgState} {ts us : List ArgToken} :
    st.Reads (ts ++ us) st₂ ↔ ∃ st₁, st.Reads ts st₁ ∧ st₁.Reads us st₂ := by
  constructor
  · intro h
    induction ts generalizing st with
    | nil => exact ⟨st, .nil, h⟩
    | cons t ts ih =>
      cases h with
      | cons ht hs =>
        obtain ⟨st₁, hs, h'⟩ := ih hs
        exact ⟨st₁, .cons ht hs, h'⟩
  · rintro ⟨st₁, h, h'⟩
    exact h.append h'

/-- A command line with a unit that is not well-formed asks for nothing that can be performed. -/
theorem bad_notMem_of_reads {st st' : ArgState} {ts : List ArgToken} (h : st.Reads ts st')
    (e : UsageError) : .bad e ∉ ts := by
  induction h with
  | nil => exact List.not_mem_nil
  | cons ht _ ih =>
    refine fun hmem => (List.mem_cons.mp hmem).elim (fun hbad => ?_) ih
    subst hbad
    rcases ht with ⟨⟨⟩⟩ | _ | ⟨⟨⟩⟩

end ArgState

/-! ## Arguments -/

namespace ArgToken

/-- The arguments name a log directory: the name follows the option, or an equality sign. -/
inductive GivesLogDir (dir : Text) : List Text → Prop where
  | apart (hne : dir ≠ []) (hop : isOperand dir = true) : GivesLogDir dir [logDirOption, dir]
  | joined (hne : dir ≠ []) : GivesLogDir dir [logDirOption ++ '=' :: dir]

theorem scan_cons_of_ne {a : Text} {r : List Text} (hend : a ≠ "--") (hdir : a ≠ logDirOption) :
    scan (a :: r) = ofArgument a :: scan r := by
  rw [scan.eq_def]
  simp only [beq_iff_eq, hend, hdir, if_false]

theorem logDirOption_ne_endOfOptions : logDirOption ≠ "--" := by decide

theorem scan_logDirOption_nil : scan [logDirOption] = [bad (.missingValue logDirOption)] := by
  rw [scan.eq_def]
  simp only [beq_iff_eq, logDirOption_ne_endOfOptions, if_false, if_true]

theorem scan_logDirOption_cons (v : Text) (r : List Text) : scan (logDirOption :: v :: r) =
    if isOperand v then ofDir v :: scan r else [bad (.missingValue logDirOption)] := by
  rw [scan.eq_def]
  simp only [beq_iff_eq, logDirOption_ne_endOfOptions, if_false, if_true]

/-- The arguments up to a place between two units, before the options end. The option for a log directory
takes the argument behind it. -/
inductive IsFront : List Text → Prop where
  | nil : IsFront []
  | single {x : Text} {r : List Text} (hend : x ≠ "--") (hdir : x ≠ logDirOption) (h : IsFront r) :
    IsFront (x :: r)
  | logDir {dir : Text} {r : List Text} (h : IsFront r) : IsFront (logDirOption :: dir :: r)

/-- **The units on both sides of such a place** are found apart from each other, if they are well-formed. -/
theorem IsFront.scan_append {a b : List Text} (h : IsFront a) (hbad : ∀ e, bad e ∉ scan (a ++ b))
    (b' : List Text) : scan (a ++ b') = scan a ++ scan b' := by
  induction h with
  | nil => rfl
  | single hend hdir _ ih =>
    simp only [List.cons_append, scan_cons_of_ne hend hdir] at hbad ⊢
    rw [ih fun e he => hbad e (List.mem_cons_of_mem _ he)]
  | @logDir dir r _ ih =>
    simp only [List.cons_append, scan_logDirOption_cons] at hbad ⊢
    by_cases hop : isOperand dir = true
    · simp only [hop, if_true, List.cons_append] at hbad ⊢
      rw [ih fun e he => hbad e (List.mem_cons_of_mem _ he)]
    · simp only [hop] at hbad
      exact absurd List.mem_cons_self (hbad _)

theorem ofDir_of_ne_nil {dir : Text} (h : dir ≠ []) : ofDir dir = .logDir dir := by
  rw [ofDir, if_neg (by simpa using h)]

theorem splitValue_append {name value : Text} (h : '=' ∉ name) :
    splitValue (name ++ '=' :: value) = (name, some value) := by
  have hname : ∀ c ∈ name, (c != '=') = true := fun c hc => by
    rw [bne_iff_ne]
    rintro rfl
    exact h hc
  rw [splitValue, List.takeWhile_append_of_pos hname, List.dropWhile_append_of_pos hname]
  simp

theorem ofArgument_joined (dir : Text) : ofArgument (logDirOption ++ '=' :: dir) = ofDir dir := by
  have hlong : logDirOption ++ '=' :: dir = '-' :: '-' :: ("log-dir".toList ++ '=' :: dir) := rfl
  have hnot : '=' ∉ logDirOption := by decide
  have hjson : ¬(logDirOption == ("--json" : Text)) = true := by decide
  have hstdin : ¬(logDirOption == ("--stdin" : Text)) = true := by decide
  have hhelp : ¬(logDirOption == ("--help" : Text)) = true := by decide
  have hversion : ¬(logDirOption == ("--version" : Text)) = true := by decide
  rw [hlong, ofArgument, ← hlong, ofLong, splitValue_append hnot]
  simp only [hjson, hstdin, hhelp, hversion]
  rfl

theorem scan_joined (dir : Text) (r : List Text) :
    scan ((logDirOption ++ '=' :: dir) :: r) = ofDir dir :: scan r := by
  have hend : logDirOption ++ '=' :: dir ≠ "--" := fun h => by
    have hlength := congrArg List.length h
    rw [List.length_append, List.length_cons] at hlength
    have hoption : logDirOption.length = 9 := by decide
    have hdashes : ("--" : Text).length = 2 := by decide
    omega
  have hdir : logDirOption ++ '=' :: dir ≠ logDirOption := by simp
  rw [scan_cons_of_ne hend hdir, ofArgument_joined]

/-- The two ways to name a log directory make one unit. -/
theorem GivesLogDir.scan {dir : Text} {unit : List Text} (h : GivesLogDir dir unit) (b : List Text) :
    ArgToken.scan (unit ++ b) = .logDir dir :: ArgToken.scan b := by
  cases h with
  | apart hne hop =>
    rw [List.cons_append, List.singleton_append, scan_logDirOption_cons, if_pos hop,
      ofDir_of_ne_nil hne]
  | joined hne => rw [List.singleton_append, scan_joined, ofDir_of_ne_nil hne]

/-- The option for a log directory makes a unit that names one, or one that is not well-formed. -/
theorem exists_scan_logDirOption (r : List Text) : ∃ t ts, scan (logDirOption :: r) = t :: ts ∧
    ((∃ d, t = .logDir d) ∨ ∃ e, t = .bad e) := by
  cases r with
  | nil => exact ⟨_, _, scan_logDirOption_nil, .inr ⟨_, rfl⟩⟩
  | cons v s =>
    rw [scan_logDirOption_cons]
    by_cases hop : isOperand v = true
    · refine ⟨ofDir v, scan s, if_pos hop, ?_⟩
      rw [ofDir]
      split
      · exact .inr ⟨_, rfl⟩
      · exact .inl ⟨_, rfl⟩
    · exact ⟨_, _, if_neg hop, .inr ⟨_, rfl⟩⟩

end ArgToken

namespace Request

variable {args : List Text} {i : Invocation}

theorem ofArguments_eq_read (args : List Text) :
    ofArguments args = (ArgState.before .empty).read (ArgToken.scan args) := rfl

/-- The invocation that a command line asks for. -/
theorem ofArguments_eq_ok_iff : ofArguments args = .ok (.perform i) ↔
    ∃ st, (ArgState.before .empty).Reads (ArgToken.scan args) st ∧ st.invocation? = some i := by
  rw [ofArguments_eq_read, ArgState.read_eq_ok_iff]

theorem bad_notMem_scan (h : ofArguments args = .ok (.perform i)) (e : UsageError) :
    .bad e ∉ ArgToken.scan args := by
  obtain ⟨st, hr, -⟩ := ofArguments_eq_ok_iff.mp h
  exact ArgState.bad_notMem_of_reads hr e

end Request

end CommandVetting
