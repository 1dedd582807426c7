import CommandVetting.Proofs.Cli.Arguments

/-!
# Options that hold for every command

Two options hold for every command and may stand on either side of it. What they do to a command line is
told apart from all else that it says: two states that differ in one such option only take the same units,
as long as none of them gives this option.

* `GlobalOption`, `ArgToken.option?`, `Globals.unit?`: the options, the units that give them, and **what
  has been given so far**;
* `Globals.Takes.given`: what such a unit does;
* `ArgState.EqUpTo`: two states that differ at most in one option; `Takes.of_eqUpTo`, `Reads.of_eqUpTo`:
  they take the same units;
* **`ArgState.read_insert_iff`**: a unit that gives an option may be put in, or taken out, anywhere;
* `Request.ofArguments_insert`: an option is put in between two units of a command line;
  `Request.ofArguments_insert_logDir`: naming a log directory where there was none.
-/

namespace CommandVetting

/-- An option that holds for every command. -/
inductive GlobalOption where
  | json
  | logDir
  deriving DecidableEq

/-- The option that a unit gives, if it holds for every command. -/
def ArgToken.option? : ArgToken → Option GlobalOption
  | json => some .json
  | logDir _ => some .logDir
  | stdin | help | version | endOfOptions | operand _ | bad _ => none

variable {k : GlobalOption} {t : ArgToken}

/-! ## What has been given -/

namespace Globals

variable {g g' g₁ g₂ : Globals}

/-- The unit that has given an option. -/
def unit? (g : Globals) : GlobalOption → Option ArgToken
  | .json => if g.json then some .json else none
  | .logDir => g.logDir.map .logDir

theorem unit?_json_inj : g.unit? .json = g'.unit? .json ↔ g.json = g'.json := by
  cases hg : g.json <;> cases hg' : g'.json <;> simp [unit?, hg, hg']

theorem unit?_logDir_inj : g.unit? .logDir = g'.unit? .logDir ↔ g.logDir = g'.logDir :=
  (Option.map_injective fun _ _ => ArgToken.logDir.inj).eq_iff

theorem unit?_merge (outer inner : Globals) (k : GlobalOption) :
    (outer.merge inner).unit? k = (inner.unit? k).or (outer.unit? k) := by
  cases k with
  | json => cases ho : outer.json <;> cases hi : inner.json <;> simp [unit?, merge, ho, hi]
  | logDir => cases hi : inner.logDir <;> simp [unit?, merge, hi]

theorem unit?_empty (k : GlobalOption) : empty.unit? k = none := by
  cases k <;> rfl

/-- The same has been given, apart from one option. -/
def EqUpTo (k : GlobalOption) (g g' : Globals) : Prop := ∀ k', k' ≠ k → g.unit? k' = g'.unit? k'

theorem EqUpTo.merge (h : g.EqUpTo k g') (h₁ : g₁.EqUpTo k g₂) :
    (g.merge g₁).EqUpTo k (g'.merge g₂) := by
  intro k' hk'
  rw [unit?_merge, unit?_merge, h k' hk', h₁ k' hk']

theorem Takes.exists_option? (h : g.Takes t g') : ∃ k, t.option? = some k := by
  cases h with
  | json => exact ⟨.json, rfl⟩
  | logDir => exact ⟨.logDir, rfl⟩

/-- **A unit gives its option**, which has not been given before, and nothing else. -/
theorem Takes.given (h : g.Takes t g') (ht : t.option? = some k) :
    g.unit? k = none ∧ g'.unit? k = some t ∧ g.EqUpTo k g' := by
  cases h with
  | json hj =>
    cases ht
    refine ⟨by simp [unit?, hj], rfl, fun k' hk' => ?_⟩
    cases k' with
    | json => exact absurd rfl hk'
    | logDir => rfl
  | logDir hd =>
    cases ht
    refine ⟨by simp [unit?, hd], rfl, fun k' hk' => ?_⟩
    cases k' with
    | json => rfl
    | logDir => exact absurd rfl hk'

theorem Takes.unit?_eq (h : g.Takes t g') (ht : t.option? ≠ some k) : g'.unit? k = g.unit? k := by
  obtain ⟨j, hj⟩ := h.exists_option?
  obtain ⟨-, -, hsame⟩ := h.given hj
  exact (hsame k fun hkj => ht (hkj ▸ hj)).symm

theorem exists_takes (ht : t.option? = some k) (h : g.unit? k = none) : ∃ g', g.Takes t g' := by
  cases t with
  | json =>
    cases ht
    exact ⟨_, .json (by simpa [unit?] using h)⟩
  | logDir d =>
    cases ht
    exact ⟨_, .logDir (by simpa [unit?] using h)⟩
  | stdin | help | version | endOfOptions | operand | bad => cases ht

/-- A unit that gives another option does the same, whatever has been given of this one. -/
theorem Takes.of_eqUpTo (h : g.Takes t g₁) (he : g.EqUpTo k g₂) (ht : t.option? ≠ some k) :
    ∃ g₃, g₂.Takes t g₃ ∧ g₁.EqUpTo k g₃ := by
  obtain ⟨j, hj⟩ := h.exists_option?
  obtain ⟨hnone, hsome, hsame⟩ := h.given hj
  have hjk : j ≠ k := fun hjk => ht (hjk ▸ hj)
  obtain ⟨g₃, hg⟩ := exists_takes hj ((he j hjk).symm.trans hnone)
  obtain ⟨-, hsome', hsame'⟩ := hg.given hj
  refine ⟨g₃, hg, fun k' hk' => ?_⟩
  by_cases hk : k' = j
  · rw [hk, hsome, hsome']
  · rw [← hsame k' hk, he k' hk', hsame' k' hk]

end Globals

/-- An invocation with what a unit gives. -/
def Invocation.given (i : Invocation) : ArgToken → Invocation
  | .json => { i with json := true }
  | .logDir d => { i with logDir := some d }
  | .stdin | .help | .version | .endOfOptions | .operand _ | .bad _ => i

theorem Globals.EqUpTo.given_eq {g g' : Globals} (h : g.EqUpTo k g') (ht : t.option? = some k)
    (hg : g'.unit? k = some t) (c : Command) :
    (⟨g'.json, g'.logDir, c⟩ : Invocation) = (⟨g.json, g.logDir, c⟩ : Invocation).given t := by
  cases t with
  | json =>
    cases ht
    have hjson : g'.json = true := by simpa [unit?] using hg
    have hlog : g.logDir = g'.logDir := unit?_logDir_inj.mp (h .logDir (by decide))
    rw [Invocation.given, hjson, hlog]
  | logDir d =>
    cases ht
    have hlog : g'.logDir = some d := by simpa [unit?] using hg
    have hjson : g.json = g'.json := unit?_json_inj.mp (h .json (by decide))
    rw [Invocation.given, hlog, hjson]
  | stdin | help | version | endOfOptions | operand | bad => cases ht

/-! ## States that differ in an option -/

namespace ArgState

variable {st st₁ st₂ : ArgState} {ts us : List ArgToken} {i : Invocation}

/-- Two states that differ at most in what has been given of one option. -/
inductive EqUpTo (k : GlobalOption) : ArgState → ArgState → Prop where
  | before {g g' : Globals} (h : g.EqUpTo k g') : EqUpTo k (before g) (before g')
  | after {outer outer' g g' : Globals} {name : CommandName} {operand : Option Text} {stdin : Bool}
    (houter : outer.EqUpTo k outer') (h : g.EqUpTo k g') :
    EqUpTo k (after outer name ⟨g, operand, stdin⟩) (after outer' name ⟨g', operand, stdin⟩)

theorem EqUpTo.symm (h : st.EqUpTo k st₁) : st₁.EqUpTo k st := by
  cases h with
  | before h => exact .before fun k' hk' => (h k' hk').symm
  | after houter h =>
    exact .after (fun k' hk' => (houter k' hk').symm) fun k' hk' => (h k' hk').symm

theorem EqUpTo.exists_invocation? (h : st.EqUpTo k st₁) (hi : st.invocation? = some i) :
    ∃ j, st₁.invocation? = some j := by
  cases h with
  | before => cases hi
  | after =>
    obtain ⟨c, hc, -⟩ := Option.map_eq_some_iff.mp hi
    exact ⟨_, Option.map_eq_some_iff.mpr ⟨c, hc, rfl⟩⟩

/-- What the two states ask for differs in the option only. -/
theorem EqUpTo.invocation? (h : st.EqUpTo k st₁) (ht : t.option? = some k)
    (hst : st₁.globals.unit? k = some t) (hi : st.invocation? = some i) :
    st₁.invocation? = some (i.given t) := by
  cases h with
  | before => cases hi
  | after houter hinner =>
    obtain ⟨c, hc, rfl⟩ := Option.map_eq_some_iff.mp hi
    exact Option.map_eq_some_iff.mpr ⟨c, hc, (houter.merge hinner).given_eq ht hst c⟩

theorem logDir_of_invocation? (h : st.invocation? = some i) : i.logDir = st.globals.logDir := by
  cases st with
  | before g => cases h
  | after outer name o =>
    obtain ⟨c, -, rfl⟩ := Option.map_eq_some_iff.mp h
    rfl

/-! ## One unit -/

/-- A unit that gives an option can be taken in every state without it. -/
theorem exists_takes_of_option? (ht : t.option? = some k) (h : st.globals.unit? k = none) :
    ∃ st', st.Takes t st' := by
  cases st with
  | before g =>
    obtain ⟨g', hg⟩ := Globals.exists_takes ht h
    exact ⟨_, .outer hg⟩
  | after outer name o =>
    have hinner : o.globals.unit? k = none := by
      rw [globals, Globals.unit?_merge, Option.or_eq_none_iff] at h
      exact h.1
    obtain ⟨g', hg⟩ := Globals.exists_takes ht hinner
    exact ⟨_, .inner hg⟩

/-- A unit that gives an option does nothing else. -/
theorem Takes.given (h : st.Takes t st₁) (ht : t.option? = some k) :
    st.EqUpTo k st₁ ∧ st₁.globals.unit? k = some t := by
  cases h with
  | outer hg =>
    obtain ⟨-, hsome, hsame⟩ := hg.given ht
    exact ⟨.before hsame, hsome⟩
  | inner hg =>
    obtain ⟨-, hsome, hsame⟩ := hg.given ht
    refine ⟨.after (fun _ _ => rfl) hsame, ?_⟩
    rw [globals, Globals.unit?_merge, hsome, Option.some_or]
  | command | stdin | endOfOptions | operand => cases ht

theorem Takes.unit?_eq (h : st.Takes t st₁) (ht : t.option? ≠ some k) :
    st₁.globals.unit? k = st.globals.unit? k := by
  cases h with
  | outer hg => exact hg.unit?_eq ht
  | inner hg => rw [globals, globals, Globals.unit?_merge, Globals.unit?_merge, hg.unit?_eq ht]
  | @command g =>
    have hmerge : (g.merge Operands.empty.globals).unit? k = g.unit? k := by
      rw [Globals.unit?_merge, Operands.empty, Globals.unit?_empty, Option.none_or]
    exact hmerge
  | stdin | endOfOptions | operand => rfl

/-- **A unit that gives no such option** does the same in two states that differ in it. -/
theorem Takes.of_eqUpTo (h : st.Takes t st₁) (he : st.EqUpTo k st₂) (ht : t.option? ≠ some k) :
    ∃ st₃, st₂.Takes t st₃ ∧ st₁.EqUpTo k st₃ := by
  cases he with
  | before he =>
    cases h with
    | outer hg =>
      obtain ⟨g₃, hg₃, he₃⟩ := hg.of_eqUpTo he ht
      exact ⟨_, .outer hg₃, .before he₃⟩
    | command hw => exact ⟨_, .command hw, .after he fun _ _ => rfl⟩
  | after houter he =>
    cases h with
    | inner hg =>
      obtain ⟨g₃, hg₃, he₃⟩ := hg.of_eqUpTo he ht
      exact ⟨_, .inner hg₃, .after houter he₃⟩
    | stdin hs => exact ⟨_, .stdin hs, .after houter he⟩
    | endOfOptions => exact ⟨_, .endOfOptions, .after houter he⟩
    | operand hn ho => exact ⟨_, .operand hn ho, .after houter he⟩

/-- An option that has been given stays. -/
theorem Takes.unit?_eq_none (h : st.Takes t st₁) (hn : st₁.globals.unit? k = none) :
    st.globals.unit? k = none ∧ t.option? ≠ some k := by
  have ht : t.option? ≠ some k := by
    intro ht
    cases (h.given ht).2.symm.trans hn
  exact ⟨(h.unit?_eq ht).symm.trans hn, ht⟩

/-! ## Several units -/

theorem Reads.unit?_eq (h : st.Reads ts st₁) (hts : ∀ u ∈ ts, u.option? ≠ some k) :
    st₁.globals.unit? k = st.globals.unit? k := by
  induction h with
  | nil => rfl
  | cons ht _ ih =>
    obtain ⟨hhead, htail⟩ := List.forall_mem_cons.mp hts
    exact (ih htail).trans (ht.unit?_eq hhead)

theorem Reads.of_eqUpTo (h : st.Reads ts st₁) (he : st.EqUpTo k st₂)
    (hts : ∀ u ∈ ts, u.option? ≠ some k) : ∃ st₃, st₂.Reads ts st₃ ∧ st₁.EqUpTo k st₃ := by
  induction h generalizing st₂ with
  | nil => exact ⟨st₂, .nil, he⟩
  | cons ht _ ih =>
    obtain ⟨hhead, htail⟩ := List.forall_mem_cons.mp hts
    obtain ⟨m, hm, hem⟩ := ht.of_eqUpTo he hhead
    obtain ⟨e, hs, hee⟩ := ih hem htail
    exact ⟨e, .cons hm hs, hee⟩

theorem Reads.unit?_eq_none (h : st.Reads ts st₁) (hn : st₁.globals.unit? k = none) :
    st.globals.unit? k = none ∧ ∀ u ∈ ts, u.option? ≠ some k := by
  induction h with
  | nil => exact ⟨hn, fun _ hu => absurd hu List.not_mem_nil⟩
  | cons ht _ ih =>
    obtain ⟨hmid, htail⟩ := ih hn
    obtain ⟨hst, hhead⟩ := ht.unit?_eq_none hmid
    exact ⟨hst, List.forall_mem_cons.mpr ⟨hhead, htail⟩⟩

/-- **A unit that gives an option may stand anywhere.** Units that do not give it are read with it as they
are read without it, wherever it stands among them, and what is asked for differs in the option only. -/
theorem read_insert_iff (ht : t.option? = some k) (hst : st.globals.unit? k = none)
    (hts : ∀ u ∈ ts ++ us, u.option? ≠ some k) : st.read (ts ++ t :: us) = .ok (.perform i) ↔
      ∃ j : Invocation, st.read (ts ++ us) = .ok (.perform j) ∧ i = j.given t := by
  obtain ⟨hfront, hback⟩ := List.forall_mem_append.mp hts
  constructor
  · intro h
    obtain ⟨e, hr, hi⟩ := read_eq_ok_iff.mp h
    obtain ⟨m, hm, hr⟩ := reads_append_iff.mp hr
    cases hr with
    | @cons _ m' _ _ _ htake hrest =>
      -- From the state without the option, the other units are read to the end.
      obtain ⟨hmm', hgiven⟩ := htake.given ht
      obtain ⟨e', hrest', hee'⟩ := hrest.of_eqUpTo hmm'.symm hback
      obtain ⟨j, hj⟩ := hee'.exists_invocation? hi
      have hunit : e.globals.unit? k = some t := (hrest.unit?_eq hback).trans hgiven
      have hij := hee'.symm.invocation? ht hunit hj
      exact ⟨j, read_eq_ok_iff.mpr ⟨e', hm.append hrest', hj⟩, Option.some.inj (hi.symm.trans hij)⟩
  · rintro ⟨j, h, rfl⟩
    obtain ⟨e, hr, hj⟩ := read_eq_ok_iff.mp h
    obtain ⟨m, hm, hrest⟩ := reads_append_iff.mp hr
    obtain ⟨m', htake⟩ := exists_takes_of_option? ht ((hm.unit?_eq hfront).trans hst)
    obtain ⟨hmm', hgiven⟩ := htake.given ht
    obtain ⟨e', hrest', hee'⟩ := hrest.of_eqUpTo hmm' hback
    have hunit : e'.globals.unit? k = some t := (hrest'.unit?_eq hback).trans hgiven
    exact read_eq_ok_iff.mpr ⟨e', hm.append (.cons htake hrest'), hee'.invocation? ht hunit hj⟩

end ArgState

/-! ## Command lines -/

namespace Request

variable {a b unit : List Text} {dir : Text} {i : Invocation}

/-- **An option is put in** between the units of a command line that does not give it. -/
theorem ofArguments_insert (h : ofArguments (a ++ b) = .ok (.perform i)) (ha : ArgToken.IsFront a)
    (ht : t.option? = some k) (hno : ∀ u ∈ ArgToken.scan (a ++ b), u.option? ≠ some k)
    (hunit : ArgToken.scan (unit ++ b) = t :: ArgToken.scan b) :
    ofArguments (a ++ unit ++ b) = .ok (.perform (i.given t)) := by
  have hscan := ha.scan_append (bad_notMem_scan h)
  rw [hscan] at hno
  rw [ofArguments_eq_read, hscan] at h
  rw [ofArguments_eq_read, List.append_assoc, hscan, hunit]
  have hstart : (ArgState.before .empty).globals.unit? k = none := Globals.unit?_empty k
  exact (ArgState.read_insert_iff ht hstart hno).mpr ⟨i, h, rfl⟩

/-- In a command line that names no log directory, every argument is a unit of its own. -/
theorem isFront_of_ofArguments (h : ofArguments (a ++ b) = .ok (.perform i))
    (hno : ∀ u ∈ ArgToken.scan (a ++ b), u.option? ≠ some .logDir) (ha : "--".toList ∉ a) :
    ArgToken.IsFront a := by
  have hbad := bad_notMem_scan h
  clear h
  induction a with
  | nil => exact .nil
  | cons x a ih =>
    rw [List.mem_cons, not_or] at ha
    rw [List.cons_append] at hno hbad
    by_cases hdir : x = ArgToken.logDirOption
    · obtain ⟨t, ts, hscan, ht⟩ := ArgToken.exists_scan_logDirOption (a ++ b)
      rw [hdir, hscan] at hno hbad
      obtain ⟨d, rfl⟩ | ⟨e, rfl⟩ := ht
      · exact absurd rfl (hno _ List.mem_cons_self)
      · exact absurd List.mem_cons_self (hbad e)
    · rw [ArgToken.scan_cons_of_ne (Ne.symm ha.1) hdir] at hno hbad
      exact .single (Ne.symm ha.1) hdir (ih (fun u hu => hno u (List.mem_cons_of_mem _ hu)) ha.2
        fun e he => hbad e (List.mem_cons_of_mem _ he))

/-- **Naming a log directory** in a command line that names none changes nothing else in what it asks
for, wherever it is done before the options end. -/
theorem ofArguments_insert_logDir (h : ofArguments (a ++ b) = .ok (.perform i)) (hi : i.logDir = none)
    (ha : "--".toList ∉ a) (hu : ArgToken.GivesLogDir dir unit) :
    ofArguments (a ++ unit ++ b) = .ok (.perform { i with logDir := some dir }) := by
  obtain ⟨e, hr, he⟩ := ofArguments_eq_ok_iff.mp h
  -- What names no log directory in the end has not named one on the way.
  have hn : e.globals.unit? .logDir = none := by
    rw [Globals.unit?, ← ArgState.logDir_of_invocation? he, hi, Option.map_none]
  have hno := (hr.unit?_eq_none hn).2
  exact ofArguments_insert h (isFront_of_ofArguments h hno ha) rfl hno (hu.scan b)

end Request

end CommandVetting
