import CommandVetting.Proofs.Cli.Audit
import CommandVetting.Proofs.Cli.GlobalOptions

/-!
# The place of an option

An option that holds for every command may stand before the command, between the command and its operands,
or behind them, as long as it stands between two units and before the two hyphens that end the options. It
takes its value with it.

* `GlobalOption.IsUnit`: the arguments that give an option; `GlobalOption.occurrences`: how often they do;
* `ArgToken.countP_scan_le`: **every unit that gives an option is an occurrence of it**;
* **`global_option_moves`**: the same option at another place.
-/

namespace CommandVetting

variable {k : GlobalOption} {a b unit args : List Text} {dir name v x : Text}

/-! ## Occurrences -/

/-- The arguments that give an option, together with its value. -/
inductive GlobalOption.IsUnit : GlobalOption → List Text → Prop where
  | json : IsUnit .json ["--json"]
  | apart (dir : Text) : IsUnit .logDir [ArgToken.logDirOption, dir]
  | joined (dir : Text) : IsUnit .logDir [ArgToken.logDirOption ++ '=' :: dir]

/-- The argument is an option, whatever its value is. -/
def GlobalOption.isNamedBy : GlobalOption → Text → Bool
  | .json, x => x == "--json"
  | .logDir, x => x == ArgToken.logDirOption || (ArgToken.logDirOption ++ ['=']).isPrefixOf x

/-- How often an option occurs before the two hyphens that end the options. -/
def GlobalOption.occurrences (k : GlobalOption) (args : List Text) : Nat :=
  (args.takeWhile (· != ("--" : Text))).countP k.isNamedBy

theorem GlobalOption.occurrences_cons (hx : x ≠ "--") (r : List Text) :
    k.occurrences (x :: r) = k.occurrences r + if k.isNamedBy x then 1 else 0 := by
  have hne : (x != ("--" : Text)) = true := bne_iff_ne.mpr hx
  rw [occurrences, List.takeWhile_cons, if_pos hne, List.countP_cons, occurrences]

namespace ArgToken

/-- The name of an option and its value make the argument again. -/
theorem eq_append_of_splitValue {value? : Option Text} (h : splitValue x = (name, value?)) :
    x = name ++ value?.elim [] ('=' :: ·) := by
  obtain ⟨rfl, rfl⟩ := Prod.mk.inj h
  have happend := List.takeWhile_append_dropWhile (p := (· != '=')) (l := x)
  have hstop := List.head?_dropWhile_not (· != '=') x
  cases hrest : x.dropWhile (· != '=') with
  | nil =>
    rw [hrest] at happend
    exact happend.symm
  | cons c v =>
    rw [hrest] at happend hstop
    obtain rfl : c = '=' := by simpa using hstop
    exact happend.symm

theorem option?_flag {t : ArgToken} {value? : Option Text} (h : (flag t name value?).option? = some k) :
    value? = none ∧ t.option? = some k := by
  cases value? with
  | none => exact ⟨rfl, h⟩
  | some v => cases h

theorem option?_ofDir (h : (ofDir dir).option? = some k) : k = .logDir := by
  rw [ofDir] at h
  split_ifs at h <;> cases h
  rfl

/-- An argument that gives an option is named after it. -/
theorem isNamedBy_of_ofLong (h : (ofLong x).option? = some k) : k.isNamedBy x = true := by
  obtain ⟨name, value?, hsplit⟩ : ∃ name value?, splitValue x = (name, value?) := ⟨_, _, rfl⟩
  have hx := eq_append_of_splitValue hsplit
  simp only [ofLong, hsplit, beq_iff_eq] at h
  split_ifs at h with hjson hstdin hhelp hversion hdir
  · obtain ⟨rfl, hk⟩ := option?_flag h
    cases hk
    rw [hx, hjson]
    rfl
  · cases (option?_flag h).2
  · cases (option?_flag h).2
  · cases (option?_flag h).2
  · cases value? with
    | none => cases h
    | some v =>
      obtain rfl := option?_ofDir h
      rw [hx, hdir]
      simp [GlobalOption.isNamedBy]
  · cases h

theorem isNamedBy_of_ofArgument (h : (ofArgument x).option? = some k) : k.isNamedBy x = true := by
  unfold ofArgument at h
  split at h
  · exact isNamedBy_of_ofLong h
  all_goals cases h

/-- **Every unit that gives an option is an occurrence of it.** -/
theorem countP_scan_le (k : GlobalOption) (args : List Text) :
    (scan args).countP (fun t => t.option? = some k) ≤ k.occurrences args := by
  fun_induction scan args with
  | case1 => exact Nat.zero_le _
  | case2 x r hend =>
    -- Nothing behind the two hyphens is an option.
    have hnone : (endOfOptions :: r.map operand).countP (fun t => t.option? = some k) = 0 := by
      rw [List.countP_eq_zero]
      simp [option?]
    rw [hnone]
    exact Nat.zero_le _
  | case3 x => exact Nat.zero_le _
  | case4 x hend hdir v s hop ih =>
    rw [beq_iff_eq] at hend hdir
    have hv : v ≠ "--" := by
      rintro rfl
      cases hop
    rw [GlobalOption.occurrences_cons hend, GlobalOption.occurrences_cons hv, List.countP_cons]
    have hx : (ofDir v).option? = some k → k.isNamedBy x = true := by
      intro ht
      obtain rfl := option?_ofDir ht
      rw [hdir]
      rfl
    by_cases ht : (ofDir v).option? = some k
    · rw [if_pos (hx ht)]
      split_ifs <;> omega
    · rw [if_neg (by simpa using ht)]
      split_ifs <;> omega
  | case5 x => exact Nat.zero_le _
  | case6 x r hend hdir ih =>
    rw [beq_iff_eq] at hend
    rw [GlobalOption.occurrences_cons hend, List.countP_cons]
    split_ifs with ht hx
    · exact Nat.add_le_add_right ih 1
    · exact absurd (isNamedBy_of_ofArgument (of_decide_eq_true ht)) hx
    · exact Nat.le_succ_of_le ih
    · exact ih

/-! ## Units that give an option -/

theorem ne_nil_of_ofDir {ts : List ArgToken} (hbad : ∀ e, bad e ∉ ofDir dir :: ts) : dir ≠ [] := by
  rintro rfl
  exact hbad _ List.mem_cons_self

/-- What names a log directory and is well-formed can be said in both ways. -/
theorem givesLogDir_of_apart (hbad : ∀ e, bad e ∉ scan ([logDirOption, dir] ++ b)) :
    GivesLogDir dir [logDirOption, dir] := by
  rw [List.cons_append, List.singleton_append, scan_logDirOption_cons] at hbad
  split_ifs at hbad with hop
  · exact .apart (ne_nil_of_ofDir hbad) hop
  · exact absurd List.mem_cons_self (hbad _)

/-- **The arguments that give an option make one unit** if they are well-formed, whatever follows them. -/
theorem exists_scan_isUnit (hunit : k.IsUnit unit) (hbad : ∀ e, bad e ∉ scan (unit ++ b)) :
    ∃ t, t.option? = some k ∧ ∀ b', scan (unit ++ b') = t :: scan b' := by
  cases hunit with
  | json => exact ⟨.json, rfl, fun b' => scan_cons_of_ne (by decide) (by decide)⟩
  | apart dir => exact ⟨.logDir dir, rfl, (givesLogDir_of_apart hbad).scan⟩
  | joined dir =>
    rw [List.singleton_append, scan_joined] at hbad
    exact ⟨.logDir dir, rfl, (GivesLogDir.joined (ne_nil_of_ofDir hbad)).scan⟩

end ArgToken

/-! ## Other places -/

namespace Request

variable {a' b' : List Text} {i : Invocation}

/-- **An option is taken out** of a command line that gives it once. -/
theorem exists_ofArguments_of_isUnit (h : ofArguments (a ++ unit ++ b) = .ok (.perform i))
    (ha : ArgToken.IsFront a) (hunit : k.IsUnit unit) (honce : k.occurrences (a ++ unit ++ b) ≤ 1) :
    ∃ t j, t.option? = some k ∧ (∀ b', ArgToken.scan (unit ++ b') = t :: ArgToken.scan b') ∧
      (∀ u ∈ ArgToken.scan (a ++ b), u.option? ≠ some k) ∧
      ofArguments (a ++ b) = .ok (.perform j) ∧ i = j.given t := by
  have hcount := (ArgToken.countP_scan_le k (a ++ unit ++ b)).trans honce
  have hbad := bad_notMem_scan h
  rw [ofArguments_eq_read] at h
  rw [List.append_assoc] at h hcount hbad
  have hscan := ha.scan_append hbad
  rw [hscan] at h hcount hbad
  obtain ⟨t, ht, hscanunit⟩ :=
    ArgToken.exists_scan_isUnit hunit fun e he => hbad e (List.mem_append_right _ he)
  rw [hscanunit] at h hcount
  -- The unit is the only one that gives the option.
  have hno : ∀ u ∈ ArgToken.scan a ++ ArgToken.scan b, u.option? ≠ some k := by
    rw [List.countP_append, List.countP_cons, if_pos (by simpa using ht)] at hcount
    have hzero : (ArgToken.scan a ++ ArgToken.scan b).countP (fun t => t.option? = some k) = 0 := by
      rw [List.countP_append]
      omega
    simpa using List.countP_eq_zero.mp hzero
  have hstart : (ArgState.before .empty).globals.unit? k = none := Globals.unit?_empty k
  obtain ⟨j, hj, hij⟩ := (ArgState.read_insert_iff ht hstart hno).mp h
  rw [← hscan] at hj hno
  exact ⟨t, j, ht, hscanunit, hno, hj, hij⟩

/-- A log directory is named in one argument instead of two. -/
theorem ofArguments_joined (h : ofArguments (a ++ [ArgToken.logDirOption, dir] ++ b) = .ok (.perform i))
    (ha : ArgToken.IsFront a) :
    ofArguments (a ++ [ArgToken.logDirOption ++ '=' :: dir] ++ b) = .ok (.perform i) := by
  have hbad := bad_notMem_scan h
  rw [ofArguments_eq_read] at h ⊢
  rw [List.append_assoc] at h hbad ⊢
  have hscan := ha.scan_append hbad
  rw [hscan] at h hbad ⊢
  have hapart := ArgToken.givesLogDir_of_apart fun e he => hbad e (List.mem_append_right _ he)
  rw [hapart.scan] at h
  cases hapart with
  | apart hne => rwa [(ArgToken.GivesLogDir.joined hne).scan]

end Request

/-- **An option that holds for every command may stand anywhere.** In a command line that gives such an
option once, the option can be moved, together with its value, to any other place between two units that
comes before the end of the options, whether the command has been named there or not: the command line
asks for the same, and every run of it leaves the same. Nor does it matter whether a log directory follows
its option or an equality sign. -/
theorem global_option_moves {a' b' : List Text} {i : Invocation} (hunit : k.IsUnit unit)
    (ha : ArgToken.IsFront a) (hargs : Request.ofArguments (a ++ unit ++ b) = .ok (.perform i))
    (ha' : ArgToken.IsFront a') (hab : a' ++ b' = a ++ b) :
    (k.occurrences (a ++ unit ++ b) ≤ 1 →
      Request.ofArguments (a' ++ unit ++ b') = .ok (.perform i) ∧
        ∀ s, runArguments s (a' ++ unit ++ b') = runArguments s (a ++ unit ++ b)) ∧
    (∀ dir, unit = [ArgToken.logDirOption, dir] →
      Request.ofArguments (a ++ [ArgToken.logDirOption ++ '=' :: dir] ++ b) = .ok (.perform i) ∧
        ∀ s, runArguments s (a ++ [ArgToken.logDirOption ++ '=' :: dir] ++ b) =
          runArguments s (a ++ unit ++ b)) := by
  have hruns : ∀ args, Request.ofArguments args = .ok (.perform i) →
      ∀ s, runArguments s args = runArguments s (a ++ unit ++ b) := by
    intro args h s
    rw [runArguments_of_ok h, runArguments_of_ok hargs]
  constructor
  · intro honce
    obtain ⟨t, j, ht, hscan, hno, hj, rfl⟩ :=
      Request.exists_ofArguments_of_isUnit hargs ha hunit honce
    rw [← hab] at hno hj
    have hmoved := Request.ofArguments_insert hj ha' ht hno (hscan b')
    exact ⟨hmoved, hruns _ hmoved⟩
  · rintro dir rfl
    have hjoined := Request.ofArguments_joined hargs ha
    exact ⟨hjoined, hruns _ hjoined⟩

/-- A log directory and a candidate that are spelled like the command and like the option. -/
theorem global_option_moves_logDir :
    let s : Surroundings := ⟨some "debug", "2024-12-06-14-30-25", .fresh ["home"], []⟩
    let front : List Text := ["--log-dir", "audit", "audit", "--json", "--", "--log-dir"]
    let moved : List Text := ["audit", "--json", "--log-dir", "audit", "--", "--log-dir"]
    let joined : List Text := ["--log-dir=audit", "audit", "--json", "--", "--log-dir"]
    Request.ofArguments moved = .ok (.perform ⟨true, some "audit", .audit (.argument "--log-dir")⟩) ∧
      runArguments s moved = runArguments s front ∧ runArguments s joined = runArguments s front := by
  intro s front moved joined
  let a' : List Text := ["audit", "--json"]
  let b' : List Text := ["--", "--log-dir"]
  have hargs : Request.ofArguments ([] ++ [ArgToken.logDirOption, "audit"] ++ (a' ++ b')) =
      .ok (.perform ⟨true, some "audit", .audit (.argument "--log-dir")⟩) := by
    decide +kernel
  have ha' : ArgToken.IsFront a' := .single (by decide) (by decide) (.single (by decide) (by decide) .nil)
  obtain ⟨hmoves, hjoins⟩ := global_option_moves (.apart "audit") .nil hargs ha' rfl
  obtain ⟨hmoved, hruns⟩ := hmoves (by decide +kernel)
  exact ⟨hmoved, hruns s, (hjoins _ rfl).2 s⟩

end CommandVetting
