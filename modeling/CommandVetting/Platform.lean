import CommandVetting.Text.Basic

/-!
# Baseline commands

For every platform there is a list of commands that look at a system and change nothing.

* `Platform`, with `ofKey?` and `key`: **the key is matched exactly**;
* `Platform.tasks`: the commands of a platform in the order of the list;
* `baseline`: the commands under a key in the order of their names; **an unknown key has none**.
-/

namespace CommandVetting

/-- A named command that only looks. -/
structure Task where
  name : Text
  command : Text
  deriving DecidableEq, Repr

/-- A platform with baseline commands. -/
inductive Platform where
  | windows
  | linux
  deriving DecidableEq, Repr

namespace Platform

def all : List Platform := [windows, linux]

/-- The platform taken when none is named. -/
def standard : Platform := windows

def key : Platform → Text
  | windows => "windows"
  | linux => "linux"

def ofKey? (key : Text) : Option Platform := all.find? fun p => p.key == key

theorem ofKey?_key (p : Platform) : ofKey? p.key = some p := by cases p <;> decide

/-- The baseline commands of a platform. -/
def tasks : Platform → List Task
  | windows =>
    [⟨"identity", "whoami /all"⟩,
     ⟨"os_info",
      "ver && reg query \"HKLM\\Software\\Microsoft\\Windows NT\\CurrentVersion\" /v ProductName " ++
        "&& reg query \"HKLM\\Software\\Microsoft\\Windows NT\\CurrentVersion\" " ++
        "/v CurrentBuildNumber " ++
        "&& reg query \"HKLM\\Software\\Microsoft\\Windows NT\\CurrentVersion\" /v UBR"⟩,
     ⟨"network", "ipconfig /all && route print"⟩,
     ⟨"firewall", "netsh advfirewall show allprofiles"⟩,
     ⟨"hotfixes",
      "powershell -NoProfile -Command \"Get-HotFix | Sort-Object InstalledOn -Descending | " ++
        "Select-Object -First 20 | Format-Table -AutoSize\""⟩,
     ⟨"defender_status",
      "powershell -NoProfile -Command \"if (Get-Command Get-MpComputerStatus -ErrorAction " ++
        "SilentlyContinue) \x7b Get-MpComputerStatus | Select-Object AMServiceEnabled," ++
        "AntispywareEnabled,RealTimeProtectionEnabled,IoavProtectionEnabled,NISEnabled | " ++
        "Format-List \x7d else \x7b \\\"Defender cmdlets not available.\\\" \x7d\""⟩,
     ⟨"audit_policy_hint", "auditpol /get /category:*"⟩]
  | linux =>
    [⟨"identity", "id"⟩,
     ⟨"os_info", "cat /etc/os-release 2>/dev/null || uname -a"⟩,
     ⟨"network", "ip addr 2>/dev/null || ifconfig -a 2>/dev/null"⟩,
     ⟨"listening_ports", "ss -lntup 2>/dev/null || netstat -lntup 2>/dev/null"⟩,
     ⟨"time_sync", "timedatectl status 2>/dev/null || date"⟩,
     ⟨"audit_policy_hint",
      "auditctl -s 2>/dev/null || echo \"auditd not installed/permission denied\""⟩]

end Platform

/-- Puts a task before the first one whose name is not smaller. -/
def Task.insertByName (t : Task) : List Task → List Task
  | [] => [t]
  | u :: us => if t.name ≤ u.name then t :: u :: us else u :: insertByName t us

/-- The tasks in the order of their names. -/
def Task.sortByName (ts : List Task) : List Task := ts.foldr insertByName []

/-- The baseline commands under a platform's key, in the order of their names. -/
def baseline (key : Text) : List Task :=
  match Platform.ofKey? key with
  | some p => Task.sortByName p.tasks
  | none => []

end CommandVetting
