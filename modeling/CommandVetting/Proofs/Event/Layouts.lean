import CommandVetting.Cli.Run
import CommandVetting.Proofs.Text.Letters
import CommandVetting.Proofs.Text.Lines

/-!
# The two layouts of an event

An event is shown in two layouts: on the standard error by its level and what it says, and in a log file
with its origin between the two. Both are read off from the front, since no word of an origin has a blank
in it.

* `Text.ofNat_injective`, `Text.blank_notMem_ofNat`: numbers in a line;
* `Text.afterWord_append`: what follows a word;
* **`Event.withoutOrigin_fileLine`**: without the origin, the line in a file is the other one;
* `Event.drivesTerminal_of_mem_visible`: **no message drives a terminal**;
* `openedEvent_fileLine`, `readyEvent_line`, `finishedEvent_line`: the lines of the events of a run;
* `finishedEvent_line_inj`: **the last line of an audit tells its two numbers**.
-/

namespace CommandVetting

/-! ## Words and numbers -/

namespace Text

theorem ofNat_injective : Function.Injective ofNat :=
  Function.LeftInverse.injective (g := fun t => Nat.ofDigitChars 10 t 0) fun _ =>
    Nat.ofDigitChars_ten_toDigits

theorem isDigit_of_mem_ofNat {n : Nat} {c : Char} (h : c ∈ ofNat n) : c.isDigit = true :=
  Nat.isDigit_of_mem_toDigits (by decide) (by decide) h

theorem blank_notMem_ofNat (n : Nat) : ' ' ∉ ofNat n := fun h => by
  cases isDigit_of_mem_ofNat h

/-- **The first word** and what follows it. -/
theorem afterWord_append {w : Text} (h : ' ' ∉ w) (t : Text) :
    (w ++ ' ' :: t).takeWhile (· != ' ') = w ∧ (w ++ ' ' :: t).afterWord = t := by
  have hword : ∀ c ∈ w, (c != ' ') = true := fun c hc => bne_iff_ne.mpr fun he => h (he ▸ hc)
  obtain ⟨hfront, hrest⟩ := span_append (w := ' ' :: t) hword (by simp)
  exact ⟨hfront, by rw [afterWord, hrest, List.drop_one, List.tail_cons]⟩

end Text

/-! ## Layouts -/

theorem Level.blank_notMem_name (l : Level) : ' ' ∉ l.name := by
  cases l <;> decide

theorem EventSource.blank_notMem_path (s : EventSource) : ' ' ∉ s.path := by
  cases s <;> decide

namespace Event

theorem blank_notMem_origin (e : Event) : ∀ w ∈ e.origin, ' ' ∉ w := by
  have hthread : ' ' ∉ thread := by decide
  have hcolon : ' ' ∉ [':'] := by decide
  intro w hw
  simp only [origin, List.mem_cons, List.not_mem_nil, or_false] at hw
  obtain rfl | rfl | rfl := hw
  · exact hthread
  · exact List.not_mem_append e.source.blank_notMem_path hcolon
  · exact List.not_mem_append (Text.blank_notMem_ofNat _) hcolon

/-- **Both layouts show the same.** Without the origin of the event, its line in a file is its line on the
standard error. -/
theorem withoutOrigin_fileLine (e : Event) : withoutOrigin e.fileLine = e.line := by
  have hline : e.fileLine = e.level.name ++ ' ' :: (thread ++ ' ' :: (e.source.path ++ [':'] ++
      ' ' :: (Text.ofNat e.codeLine ++ [':'] ++ ' ' :: e.body))) := by
    simp [fileLine, origin]
  have horigin := e.blank_notMem_origin
  simp only [origin, List.forall_mem_cons] at horigin
  obtain ⟨hthread, hpath, hnumber, -⟩ := horigin
  obtain ⟨hlevel, hrest⟩ := Text.afterWord_append e.level.blank_notMem_name (thread ++ ' ' ::
    (e.source.path ++ [':'] ++ ' ' :: (Text.ofNat e.codeLine ++ [':'] ++ ' ' :: e.body)))
  rw [withoutOrigin, hline, hlevel, hrest, (Text.afterWord_append hthread _).2,
    (Text.afterWord_append hpath _).2, (Text.afterWord_append hnumber _).2, line]

/-! ## Messages -/

/-- A character with which a text could drive a terminal. -/
def drivesTerminal (c : Char) : Bool :=
  ['\x1B', '\x07', '\x08', '\x0C', '\x7F'].contains c || (0x80 ≤ c.toNat && c.toNat ≤ 0x9F)

theorem all_visible (c : Char) : (visible c).all (fun d => !drivesTerminal d) = true := by
  have hcode : ∀ k < 0x20, (("\\u\x7b" : Text) ++ Nat.toDigits 16 (0x80 + k) ++ ("\x7d" : Text)).all
      (fun d => !drivesTerminal d) = true := by
    decide
  rw [visible]
  split_ifs with hescape hbell hback hfeed hdelete hcontrol
  · decide
  · decide
  · decide
  · decide
  · decide
  · -- The other control characters are written with their codes, of which there are 32.
    obtain ⟨hle, hge⟩ : 0x80 ≤ c.toNat ∧ c.toNat ≤ 0x9F := by simpa using hcontrol
    obtain ⟨k, hk⟩ := Nat.exists_eq_add_of_le hle
    rw [hk]
    exact hcode k (by omega)
  · have hrange : (0x80 ≤ c.toNat && c.toNat ≤ 0x9F) = false := Bool.eq_false_iff.mpr hcontrol
    have hfew : ['\x1B', '\x07', '\x08', '\x0C', '\x7F'].contains c = false := by simp_all
    rw [List.all_cons, List.all_nil, drivesTerminal, hrange, hfew]
    rfl

/-- **No message drives a terminal**: the characters that could are written as others. -/
theorem drivesTerminal_of_mem_visible {m : Text} {c : Char} (h : c ∈ m.flatMap visible) :
    drivesTerminal c = false := by
  obtain ⟨d, -, hc⟩ := List.mem_flatMap.mp h
  simpa using List.all_eq_true.mp (all_visible d) c hc

end Event

/-! ## The events of a run -/

/-- The first line of a log file. -/
theorem openedEvent_fileLine (path : Text) : (openedEvent path).fileLine =
    ("INFO ThreadId(01) cmd_audit::utils::logger: 61: Logging initialized - writing to " : Text) ++
      path.flatMap Event.visible := by
  let origin : List Text := [Event.thread, EventSource.log.path ++ [':'], Text.ofNat 61 ++ [':']]
  have hline : (openedEvent path).fileLine = Level.info.name ++ ' ' :: origin.flatMap (· ++ [' ']) ++
      ((("Logging initialized - writing to " : Text) ++ path).flatMap Event.visible ++ []) := rfl
  have hfront : Level.info.name ++ ' ' :: origin.flatMap (· ++ [' ']) ++
      ("Logging initialized - writing to " : Text).flatMap Event.visible =
        "INFO ThreadId(01) cmd_audit::utils::logger: 61: Logging initialized - writing to " := by
    decide
  rw [hline, List.append_nil, List.flatMap_append, ← List.append_assoc, hfront]

/-- The event at the start of every run, in both layouts. -/
theorem readyEvent_fileLine :
    readyEvent.fileLine = "DEBUG ThreadId(01) cmd_audit: 77: Engine ready version=\"1.1.0\" mode=Audit" := by
  decide

theorem readyEvent_line : readyEvent.line = "DEBUG Engine ready version=\"1.1.0\" mode=Audit" := by
  decide

/-- The last line of an audit. -/
theorem finishedEvent_line (total denied : Nat) : (finishedEvent total denied).line =
    ("INFO Audit finished total=" : Text) ++ Text.ofNat total ++ (" denied" : Text) ++
      '=' :: Text.ofNat denied := by
  have hline : (finishedEvent total denied).line = Level.info.name ++ ' ' ::
      (("Audit finished" : Text).flatMap Event.visible ++
        (' ' :: ("total" : Text) ++ '=' :: Text.ofNat total ++
          (' ' :: ("denied" : Text) ++ '=' :: Text.ofNat denied ++ []))) := rfl
  have hfront : Level.info.name ++ ' ' :: (("Audit finished" : Text).flatMap Event.visible ++
      (' ' :: ("total" : Text) ++ ['='])) = "INFO Audit finished total=" := by
    decide
  have hdenied : (" denied" : Text) = ' ' :: ("denied" : Text) := rfl
  rw [hline, ← hfront, hdenied]
  simp only [List.append_assoc, List.cons_append, List.nil_append, List.append_nil]

/-- **The last line of an audit tells its two numbers.** -/
theorem finishedEvent_line_inj {m n m' n' : Nat} :
    (finishedEvent m n).line = (finishedEvent m' n').line ↔ m = m' ∧ n = n' := by
  have hsign : ∀ k, '=' ∉ Text.ofNat k := fun k h => by cases Text.isDigit_of_mem_ofNat h
  refine ⟨fun h => ?_, fun ⟨hm, hn⟩ => hm ▸ hn ▸ rfl⟩
  rw [finishedEvent_line, finishedEvent_line] at h
  obtain ⟨hfront, hdenied⟩ := append_cons_inj (hsign n) (hsign n') h
  have htotal := List.append_cancel_left (List.append_cancel_right hfront)
  exact ⟨Text.ofNat_injective htotal, Text.ofNat_injective hdenied⟩

end CommandVetting
