import CommandVetting.Rule.Basic

/-!
# The table of rules

The rules stand in the order in which they are tried: **the first one that forbids a command is the
one that is reported**.

* `Rule.table`: the table;
* one definition for each rule, named after it.
-/

namespace CommandVetting.Rule

/-! ## Destructive commands -/

def rmRfRoot : Rule :=
  .ofSource .destructive "rm-rf-root" r"\brm\s+-rf\s+/(?:\s|$)" (by decide +kernel)

def rmRfRootGlob : Rule :=
  .ofSource .destructive "rm-rf-root-glob" r"\brm\s+-rf\s+/\*" (by decide +kernel)

def mkfs : Rule :=
  .ofSource .destructive "mkfs" r"\bmkfs(\.|_)?\w*\b" (by decide +kernel)

/-- Writing over a disk or a file. -/
def rawDiskWrite : Rule :=
  .ofSource .destructive "raw-disk-write" r"\b(?:dd|shred)\b" (by decide +kernel)

def diskpart : Rule :=
  .ofSource .destructive "diskpart" r"\bdiskpart\b" (by decide +kernel)

def formatDrive : Rule :=
  .ofSource .destructive "format-drive" r"\bformat\s+\w*:" (by decide +kernel)

def shutdown : Rule :=
  .ofSource .destructive "shutdown" r"\bshutdown\b" (by decide +kernel)

def reboot : Rule :=
  .ofSource .destructive "reboot" r"\breboot\b" (by decide +kernel)

/-- Changing to the run level that halts or restarts. -/
def initRunlevel : Rule :=
  .ofSource .destructive "init-runlevel" r"\binit\s+[06]\b" (by decide +kernel)

/-! ## Cleared logs and histories -/

def wevtutilClear : Rule :=
  .ofSource .logTampering "wevtutil-clear" r"\bwevtutil\s+cl\b" (by decide +kernel)

def clearEventlog : Rule :=
  .ofSource .logTampering "clear-eventlog" r"\bClear-EventLog\b" (by decide +kernel)

def deleteEvtx : Rule :=
  .ofSource .logTampering "delete-evtx" r"\bdel\b.*\\winevt\\logs" (by decide +kernel)

/-- Sending the shell history nowhere. -/
def histfileDevnull : Rule :=
  .ofSource .logTampering "histfile-devnull" r"\bexport\s+HISTFILE\s*=\s*/dev/null\b" (by decide +kernel)

def historyClear : Rule :=
  .ofSource .logTampering "history-clear" r"\bhistory\s+-c\b" (by decide +kernel)

/-! ## Protection turned off -/

def defenderDisable : Rule :=
  .ofSource .securityControlDisablement "defender-disable" r"\bSet-MpPreference\b.*Disable" (by decide +kernel)

def netshStateOff : Rule :=
  .ofSource .securityControlDisablement "netsh-state-off" r"\bnetsh\b.*\bstate\s+off\b" (by decide +kernel)

def ufwDisable : Rule :=
  .ofSource .securityControlDisablement "ufw-disable" r"\bufw\s+disable\b" (by decide +kernel)

/-! ## Ways back in -/

def schtasksCreate : Rule :=
  .ofSource .persistence "schtasks-create" r"\bschtasks\b.*\bcreate\b" (by decide +kernel)

def regAdd : Rule :=
  .ofSource .persistence "reg-add" r"\breg\b.*\badd\b" (by decide +kernel)

def scCreate : Rule :=
  .ofSource .persistence "sc-create" r"\bsc\b.*\bcreate\b" (by decide +kernel)

def crontabEdit : Rule :=
  .ofSource .persistence "crontab-edit" r"\bcrontab\b.*(?:^|\s)-e\b" (by decide +kernel)

def systemctlEnable : Rule :=
  .ofSource .persistence "systemctl-enable" r"\bsystemctl\b.*\benable\b" (by decide +kernel)

/-! ## Attack tools -/

def mimikatz : Rule :=
  .ofSource .offensiveTooling "mimikatz" r"\bmimikatz\b" (by decide +kernel)

/-- Abusing tickets with `rubeus`. -/
def rubeus : Rule :=
  .ofSource .offensiveTooling "rubeus" r"\brubeus\b" (by decide +kernel)

def secretsdump : Rule :=
  .ofSource .offensiveTooling "secretsdump" r"\bsecretsdump\b" (by decide +kernel)

/-- Running commands elsewhere with `psexec`. -/
def psexec : Rule :=
  .ofSource .offensiveTooling "psexec" r"\bpsexec\b" (by decide +kernel)

/-- Tunnelling with `chisel`. -/
def chisel : Rule :=
  .ofSource .offensiveTooling "chisel" r"\bchisel\b" (by decide +kernel)

/-- Tunnelling with `frp`. -/
def frp : Rule :=
  .ofSource .offensiveTooling "frp" r"\bfrp\b" (by decide +kernel)

/-- Mapping a domain with `sharphound`. -/
def sharphound : Rule :=
  .ofSource .offensiveTooling "sharphound" r"\bsharphound\b" (by decide +kernel)

/-! ## The table -/

/-- The rules in the order in which they are tried. -/
def table : List Rule :=
  [rmRfRoot, rmRfRootGlob, mkfs, rawDiskWrite, diskpart, formatDrive, shutdown, reboot,
   initRunlevel, wevtutilClear, clearEventlog, deleteEvtx, histfileDevnull, historyClear,
   defenderDisable, netshStateOff, ufwDisable, schtasksCreate, regAdd, scCreate, crontabEdit,
   systemctlEnable, mimikatz, rubeus, secretsdump, psexec, chisel, frp, sharphound]

end CommandVetting.Rule
