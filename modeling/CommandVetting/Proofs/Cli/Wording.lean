import CommandVetting.Decision
import CommandVetting.Proofs.Audit.Outcome
import CommandVetting.Proofs.Cli.Stdin

/-!
# What is said of a command

A record and a refusal quote the command as it was given and put the rule and the reason behind it. The
command may itself be made to look like a rule and a reason. What is said of it can still be read in one
way only, from its end: there are two reasons, and the sign that opens a rule is in no rule's name.

* `Denial.IsGiven`: the grounds that an audit gives;
* `Wording`: how a command and the grounds of its denial are put together; `Wording.phrase_injective`: **a
  phrase tells the command and the grounds**;
* `audit_row_injective`, `refusal_injective`: so do a row and a refusal; `exists_refusal_eq`,
  `quote_prefix_refusal`: what stands around the command in every refusal;
* `splitOn_stdout_audit`: the lines of an audit that prints rows; `candidates_eq_of_stdout_eq`: **they tell
  what has been read**;
* **`wording_unambiguous`**: the rows, the lines and the refusals of every audit.
-/

namespace CommandVetting

variable {c d t u : Text} {g g' : Denial}

/-! ## The grounds that an audit gives -/

/-- The grounds that an audit gives: there is nothing to judge, or a rule of the table forbids it. -/
inductive Denial.IsGiven : Denial → Prop where
  | empty : IsGiven ⟨some emptyReason, none, none⟩
  | forbidden {r : Rule} (hr : r ∈ Rule.table) :
    IsGiven ⟨some forbiddenReason, some r.category, some r.name⟩

theorem isGiven_of_audit (h : audit c = .deny g) : g.IsGiven := by
  rcases audit_cases c with ⟨-, ha⟩ | ⟨-, r, hf, ha⟩ | ⟨-, -, ha⟩
  · obtain rfl : g = _ := Verdict.deny.inj (h.symm.trans ha)
    exact .empty
  · obtain rfl : g = _ := Verdict.deny.inj (h.symm.trans ha)
    exact .forbidden (Rule.mem_of_first? hf)
  · rw [ha] at h
    cases h

theorem Rule.newline_notMem_name {r : Rule} (hr : r ∈ Rule.table) : '\n' ∉ r.name := by
  revert r
  decide +kernel

/-! ## Phrases -/

/-- How a command and the grounds of its denial are put together. -/
structure Wording where
  /-- Stands between the command and a rule. -/
  opening : Text
  /-- Stands between a rule and the reason. -/
  closing : Text
  /-- Stands between the command and the reason if there is no rule. -/
  link : Text

namespace Wording

/-- The command, the rule if there is one, and the reason. -/
def phrase (w : Wording) (command reason : Text) : Option Text → Text
  | some rule => command ++ w.opening ++ rule ++ w.closing ++ reason
  | none => command ++ w.link ++ reason

/-- The wording of a row. -/
def row : Wording := ⟨" [", ("]" : Text) ++ (" - " : Text), " - "⟩

/-- The wording of a refusal. -/
def refusal : Wording := ⟨"' denied (", "): ", "' denied: "⟩

/-- What opens a rule ends in a sign that is in no rule's name. -/
def IsClear (w : Wording) : Prop :=
  ∃ front sign, w.opening = front ++ [sign] ∧ ∀ r ∈ Rule.table, sign ∉ r.name

theorem isClear_row : row.IsClear := ⟨" ", '[', by decide, by decide +kernel⟩

theorem isClear_refusal : refusal.IsClear := ⟨"' denied ", '(', by decide, by decide +kernel⟩

end Wording

/-- The two reasons end in different letters. -/
theorem append_reason_ne : t ++ emptyReason ≠ u ++ forbiddenReason := by
  intro h
  have hlast := congrArg List.getLast? h
  rw [List.getLast?_append_of_ne_nil t (by decide), List.getLast?_append_of_ne_nil u (by decide)] at hlast
  revert hlast
  decide +kernel

/-- **A phrase tells the command and the grounds** of its denial. What stands for a reason that is not given
does not matter, since the grounds of an audit have one. -/
theorem Wording.phrase_injective {w : Wording} (hw : w.IsClear) {missing : Text} (hg : g.IsGiven)
    (hg' : g'.IsGiven) (h : w.phrase c (g.reason.getD missing) g.rule =
      w.phrase d (g'.reason.getD missing) g'.rule) : c = d ∧ g = g' := by
  cases hg with
  | empty => cases hg' with
    | empty => exact ⟨List.append_cancel_right (List.append_cancel_right h), rfl⟩
    | forbidden hr' => exact absurd h append_reason_ne
  | @forbidden r hr => cases hg' with
    | empty => exact absurd h.symm append_reason_ne
    | @forbidden r' hr' =>
      obtain ⟨front, sign, hopening, hsign⟩ := hw
      -- Without the reason, the sign before the name is the last of its kind.
      have hphrase : ∀ (a n : Text), w.phrase a ((some forbiddenReason).getD missing) (some n) =
          ((a ++ front) ++ sign :: n) ++ (w.closing ++ forbiddenReason) := by
        intro a n
        simp only [phrase, hopening, Option.getD_some, List.append_assoc, List.singleton_append]
      rw [hphrase, hphrase] at h
      have hrule := List.append_cancel_right h
      obtain ⟨hc, hn⟩ := append_cons_inj (hsign r hr) (hsign r' hr') hrule
      obtain rfl := Rule.eq_of_name_eq hr hr' hn
      exact ⟨List.append_cancel_right hc, rfl⟩

theorem Wording.newline_notMem_phrase {w : Wording} (hw : '\n' ∉ w.opening ++ w.closing ++ w.link)
    {missing : Text} (hc : '\n' ∉ c) (hg : g.IsGiven) :
    '\n' ∉ w.phrase c (g.reason.getD missing) g.rule := by
  simp only [List.mem_append, not_or] at hw
  obtain ⟨⟨hopening, hclosing⟩, hlink⟩ := hw
  cases hg with
  | empty =>
    have hreason : '\n' ∉ emptyReason := by decide
    exact List.not_mem_append (List.not_mem_append hc hlink) hreason
  | forbidden hr =>
    have hname := Rule.newline_notMem_name hr
    have hreason : '\n' ∉ forbiddenReason := by decide +kernel
    exact List.not_mem_append (List.not_mem_append (List.not_mem_append
      (List.not_mem_append hc hopening) hname) hclosing) hreason

/-! ## Rows and refusals -/

section Equations

variable (c : Text) (reason : Option Text) (k : Option Category) (rule : Text)

theorem row_deny_some : (Verdict.deny ⟨reason, k, some rule⟩).row c = ("DENY   " : Text) ++ c ++
    ((" [" : Text) ++ rule ++ ("]" : Text)) ++ (" - " : Text) ++ reason.getD [] := rfl

theorem row_deny_none : (Verdict.deny ⟨reason, k, none⟩).row c =
    ("DENY   " : Text) ++ c ++ [] ++ (" - " : Text) ++ reason.getD [] := rfl

theorem refusal_some : refusal c ⟨reason, k, some rule⟩ = ("Command '" : Text) ++ c ++
    ("' denied (" : Text) ++ rule ++ ("): " : Text) ++ reason.getD unspecifiedReason := rfl

theorem refusal_none : refusal c ⟨reason, k, none⟩ =
    ("Command '" : Text) ++ c ++ ("' denied: " : Text) ++ reason.getD unspecifiedReason := rfl

end Equations

theorem row_deny (c : Text) (g : Denial) : (Verdict.deny g).row c =
    ("DENY   " : Text) ++ Wording.row.phrase c (g.reason.getD []) g.rule := by
  obtain ⟨reason, category, rule⟩ := g
  cases rule with
  | some rule => simp only [row_deny_some, Wording.phrase, Wording.row, List.append_assoc]
  | none =>
    simp only [row_deny_none, Wording.phrase, Wording.row, List.append_assoc, List.nil_append]

theorem refusal_eq (c : Text) (g : Denial) : refusal c g =
    ("Command '" : Text) ++ Wording.refusal.phrase c (g.reason.getD unspecifiedReason) g.rule := by
  obtain ⟨reason, category, rule⟩ := g
  cases rule with
  | some rule =>
    simp only [refusal_some, Wording.phrase, List.append_assoc]
    rfl
  | none =>
    simp only [refusal_none, Wording.phrase, List.append_assoc]
    rfl

/-- **A refusal tells the command and the grounds.** -/
theorem refusal_injective (hg : g.IsGiven) (hg' : g'.IsGiven) (h : refusal c g = refusal d g') :
    c = d ∧ g = g' := by
  rw [refusal_eq, refusal_eq] at h
  exact Wording.phrase_injective Wording.isClear_refusal hg hg' ((List.append_right_inj _).mp h)

theorem exists_denial_of_decisionOn {reason : Text} (h : decisionOn c = .refuse reason) :
    ∃ g, audit c = .deny g ∧ refusal c g = reason := by
  rw [decisionOn] at h
  cases ha : audit c with
  | allow =>
    rw [ha] at h
    cases h
  | deny g =>
    rw [ha] at h
    exact ⟨g, rfl, Decision.refuse.inj h⟩

/-- **What follows the quotation in a refusal** depends on the grounds alone. -/
theorem exists_refusal_eq (g : Denial) : ∃ tail, ("' denied" : Text) <+: tail ∧
    ∀ c, refusal c g = ("Command '" : Text) ++ c ++ tail := by
  have hopening : ("' denied" : Text) <+: ("' denied (" : Text) := by decide
  have hlink : ("' denied" : Text) <+: ("' denied: " : Text) := by decide
  obtain ⟨reason, category, rule⟩ := g
  cases rule with
  | some rule =>
    refine ⟨("' denied (" : Text) ++ (rule ++ (("): " : Text) ++ reason.getD unspecifiedReason)),
      hopening.trans (List.prefix_append _ _), fun c => ?_⟩
    simp only [refusal_some, List.append_assoc]
  | none =>
    refine ⟨("' denied: " : Text) ++ reason.getD unspecifiedReason,
      hlink.trans (List.prefix_append _ _), fun c => ?_⟩
    simp only [refusal_none, List.append_assoc]

/-- **A refusal quotes the command**, whatever the grounds are. -/
theorem quote_prefix_refusal (c : Text) (g : Denial) :
    ("Command '" : Text) ++ c ++ ("' denied" : Text) <+: refusal c g := by
  obtain ⟨tail, hdenied, heq⟩ := exists_refusal_eq g
  rw [heq, List.prefix_append_right_inj]
  exact hdenied

namespace Verdict

theorem isAllowed_iff_prefix_row (c : Text) (v : Verdict) :
    (("ALLOW  " : Text) <+: v.row c ↔ v.isAllowed = true) ∧
      (("DENY   " : Text) <+: v.row c ↔ v.isAllowed = false) := by
  cases v with
  | allow =>
    have hrow : allow.row c = ("ALLOW  " : Text) ++ c := rfl
    simp [hrow, isAllowed]
  | deny g => simp [row_deny, isAllowed]

/-- **A row tells the command and the verdict.** -/
theorem row_injective {v v' : Verdict} (hv : ∀ g, v = .deny g → g.IsGiven)
    (hv' : ∀ g, v' = .deny g → g.IsGiven) (h : v.row c = v'.row d) : c = d ∧ v = v' := by
  have hsame : v.isAllowed = v'.isAllowed := by
    rw [Bool.eq_iff_iff, ← (v.isAllowed_iff_prefix_row c).1, ← (v'.isAllowed_iff_prefix_row d).1, h]
  cases v with
  | allow => cases v' with
    | allow => exact ⟨(List.append_right_inj ("ALLOW  " : Text)).mp h, rfl⟩
    | deny g' => cases hsame
  | deny g => cases v' with
    | allow => cases hsame
    | deny g' =>
      rw [row_deny, row_deny] at h
      obtain ⟨hc, hg⟩ := Wording.phrase_injective Wording.isClear_row (hv g rfl) (hv' g' rfl)
        ((List.append_right_inj _).mp h)
      exact ⟨hc, congrArg deny hg⟩

/-- **A row is a line** if the command is one. -/
theorem newline_notMem_row {v : Verdict} (hv : ∀ g, v = .deny g → g.IsGiven) (hc : '\n' ∉ c) :
    '\n' ∉ v.row c := by
  cases v with
  | allow =>
    have hallow : '\n' ∉ ("ALLOW  " : Text) := by decide
    exact List.not_mem_append hallow hc
  | deny g =>
    have hdeny : '\n' ∉ ("DENY   " : Text) := by decide
    have hsigns : '\n' ∉ Wording.row.opening ++ Wording.row.closing ++ Wording.row.link := by decide
    rw [row_deny]
    exact List.not_mem_append hdeny (Wording.newline_notMem_phrase hsigns hc (hv g rfl))

end Verdict

/-- **The row that is printed for a command tells the command and the verdict.** -/
theorem audit_row_injective (h : (audit c).row c = (audit d).row d) : c = d ∧ audit c = audit d :=
  Verdict.row_injective (fun _ => isGiven_of_audit) (fun _ => isGiven_of_audit) h

/-! ## Lines -/

/-- **What an audit of the standard input prints** without JSON: the rows, each a line of its own. -/
theorem splitOn_stdout_audit {s : Surroundings} {i : Invocation} {cs : List Text}
    (hlog : i.opensLog s = true) (hi : i.command = .audit .stdin) (hjson : i.json = false)
    (hcs : Source.stdin.candidates? s.stdin = some cs) :
    (i.run s).stdout.splitOn '\n' = cs.map (fun c => (audit c).row c) ++ [[]] ∧
      (i.run s).stdout.count '\n' = cs.length := by
  obtain ⟨-, hout, -⟩ := Invocation.run_audit hlog hi hcs
  have hrows : (i.run s).stdout = (cs.map fun c => (audit c).row c).flatMap (· ++ ['\n']) := by
    rw [hout, hjson, List.flatMap_map]
    rfl
  have hlines : ∀ l ∈ cs.map (fun c => (audit c).row c), '\n' ∉ l := by
    intro l hl
    obtain ⟨c, hc, rfl⟩ := List.mem_map.mp hl
    obtain ⟨t, -, rfl⟩ := Utf8.readLines?_eq_some_iff.mp hcs
    exact Verdict.newline_notMem_row (fun _ => isGiven_of_audit) (Text.newline_notMem_of_mem_lines hc)
  rw [hrows]
  exact ⟨splitOn_flatMap hlines, by rw [count_flatMap hlines, List.length_map]⟩

/-- **What an audit prints tells what it has read**: two audits that print the same rows have read the same
candidates, whatever these are made to look like. -/
theorem candidates_eq_of_stdout_eq {s s' : Surroundings} {i j : Invocation} {cs ds : List Text}
    (hlog : i.opensLog s = true) (hi : i.command = .audit .stdin) (hjson : i.json = false)
    (hcs : Source.stdin.candidates? s.stdin = some cs) (hlog' : j.opensLog s' = true)
    (hj : j.command = .audit .stdin) (hjson' : j.json = false)
    (hds : Source.stdin.candidates? s'.stdin = some ds) (h : (i.run s).stdout = (j.run s').stdout) :
    cs = ds := by
  have hinj : Function.Injective fun c => (audit c).row c := fun _ _ hrow => (audit_row_injective hrow).1
  have hrows := (splitOn_stdout_audit hlog hi hjson hcs).1
  rw [h, (splitOn_stdout_audit hlog' hj hjson' hds).1] at hrows
  exact List.map_injective_iff.mpr hinj (List.append_cancel_right hrows.symm)

theorem stdout_audit_eq_nil {s : Surroundings} {i : Invocation} (hi : i.command = .audit .stdin)
    (h : i.opensLog s = false ∨ Source.stdin.candidates? s.stdin = none) : (i.run s).stdout = [] := by
  cases hlog : i.opensLog s with
  | false =>
    obtain ⟨e, f, he, -⟩ := Invocation.run_of_not_opensLog hlog
    rw [he]
  | true =>
    have hnone : Source.stdin.candidates? s.stdin = none := h.resolve_left (by simp [hlog])
    exact (Invocation.run_undecoded hlog hi hnone).2.1

/-- **What is said of a command can be read in one way.** The row that is printed for a command tells the
command and the verdict, and so does the reason for refusing it, although both quote the command as it
is. An audit of the standard input prints one line for every candidate, in their order, and the front of
a line tells whether the candidate is allowed; if it cannot be carried out it prints nothing. Every
denial is refused with a quotation of the command, whatever its grounds. -/
theorem wording_unambiguous :
    (∀ c d : Text, (audit c).print false c = (audit d).print false d → c = d ∧ audit c = audit d) ∧
    (∀ (s : Surroundings) (args : List Text) (i : Invocation),
      Request.ofArguments args = .ok (.perform i) → i.command = .audit .stdin → i.json = false →
      (i.opensLog s = true → ∀ cs, Source.stdin.candidates? s.stdin = some cs →
        (runArguments s args).stdout.count '\n' = cs.length ∧
        ∀ (k : Nat) (c : Text), cs[k]? = some c →
          let line := (audit c).print false c
          ((runArguments s args).stdout.splitOn '\n')[k]? = some line ∧
            (("ALLOW  " : Text) <+: line ↔ (audit c).isAllowed = true) ∧
            (("DENY   " : Text) <+: line ↔ (audit c).isAllowed = false)) ∧
      (i.opensLog s = false ∨ Source.stdin.candidates? s.stdin = none →
        (runArguments s args).stdout = [])) ∧
    (∀ c d reason : Text, decisionOn c = .refuse reason → decisionOn d = .refuse reason →
      c = d ∧ audit c = audit d) ∧
    (∀ (c : Text) (v : Verdict), v.isAllowed = false → ∃ reason, v.decision c = .refuse reason ∧
      ("Command '" : Text) ++ c ++ ("' denied" : Text) <+: reason) := by
  refine ⟨fun _ _ => audit_row_injective, fun s args i hargs hi hjson => ?_,
    fun c d reason hc hd => ?_, fun c v hv => ?_⟩
  · rw [runArguments_of_ok hargs]
    refine ⟨fun hlog cs hcs => ?_, stdout_audit_eq_nil hi⟩
    obtain ⟨hsplit, hcount⟩ := splitOn_stdout_audit hlog hi hjson hcs
    refine ⟨hcount, fun k c hk => ⟨?_, (audit c).isAllowed_iff_prefix_row c⟩⟩
    have hrow : (cs.map fun c => (audit c).row c)[k]? = some ((audit c).row c) := by
      rw [List.getElem?_map, hk, Option.map_some]
    rw [hsplit, List.getElem?_append_left (List.getElem?_eq_some_iff.mp hrow).1, hrow]
    rfl
  · obtain ⟨g, hg, hr⟩ := exists_denial_of_decisionOn hc
    obtain ⟨g', hg', hr'⟩ := exists_denial_of_decisionOn hd
    obtain ⟨hcd, hgg⟩ := refusal_injective (isGiven_of_audit hg) (isGiven_of_audit hg') (hr.trans hr'.symm)
    exact ⟨hcd, by rw [hg, hg', hgg]⟩
  · cases v with
    | allow => cases hv
    | deny g => exact ⟨refusal c g, rfl, quote_prefix_refusal c g⟩

/-- Two lines, of which the second is a forged record, and a command that ends in a forged reason. -/
theorem wording_unambiguous_forged :
    let s : Surroundings :=
      ⟨none, "2024-12-06-14-30-25", .fresh ["home"], Utf8.encode "id\nfrp [reboot] - empty instruction\n"⟩
    let out := (runArguments s ["audit", "--stdin"]).stdout
    let plain : Text := "chisel"
    let forged : Text := "chisel' denied (chisel): "
    out.count '\n' = 2 ∧
      (∃ line ∈ (out.splitOn '\n')[1]?, ("DENY   " : Text) <+: line) ∧
      (audit forged).print false forged ≠ (audit plain).print false plain ∧
      decisionOn forged ≠ decisionOn plain ∧
      ∃ reason, (Verdict.deny ⟨none, none, some "frp"⟩).decision forged = .refuse reason ∧
        ("Command '" : Text) ++ forged ++ ("' denied" : Text) <+: reason := by
  intro s out plain forged
  obtain ⟨hprint, hstdin, hrefuse, hquote⟩ := wording_unambiguous
  have hargs : Request.ofArguments ["audit", "--stdin"] =
      .ok (.perform ⟨false, none, .audit .stdin⟩) := by
    decide +kernel
  have hcs : Source.stdin.candidates? s.stdin =
      some (["id", "frp [reboot] - empty instruction"] : List Text) := by
    decide +kernel
  obtain ⟨hcount, hlines⟩ := (hstdin s _ _ hargs rfl rfl).1 rfl _ hcs
  obtain ⟨hline, -, hdeny⟩ := hlines 1 _ rfl
  have hne : forged ≠ plain := by decide
  have hplain : ∃ reason, decisionOn plain = .refuse reason := by
    cases h : decisionOn plain with
    | execute => exact absurd h (by decide +kernel)
    | refuse reason => exact ⟨reason, rfl⟩
  refine ⟨hcount, ⟨_, hline, hdeny.mpr (by decide +kernel)⟩, fun h => hne (hprint _ _ h).1,
    fun h => ?_, hquote forged _ rfl⟩
  obtain ⟨reason, hr⟩ := hplain
  exact hne (hrefuse _ _ reason (h.trans hr) hr).1

end CommandVetting
