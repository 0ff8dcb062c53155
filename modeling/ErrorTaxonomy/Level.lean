/-!
# Severity levels

Every error of a taxonomy carries one of the eight syslog severities.  A level
is written in declarations by any of a dozen tokens, in any mix of ASCII upper
and lower case, and has one short token of its own and a priority: the smaller
the priority, the more severe the level.
-/

namespace ErrorTaxonomy

inductive Level where
  | emergency
  | alert
  | critical
  | error
  | warning
  | notice
  | info
  | debug
  deriving DecidableEq

namespace Level

/-- All levels, most severe first. -/
def all : List Level :=
  [emergency, alert, critical, error, warning, notice, info, debug]

def priority : Level → Nat
  | emergency => 0
  | alert => 1
  | critical => 2
  | error => 3
  | warning => 4
  | notice => 5
  | info => 6
  | debug => 7

def token : Level → String
  | emergency => "EMERG"
  | alert => "ALERT"
  | critical => "CRIT"
  | error => "ERR"
  | warning => "WARNING"
  | notice => "NOTICE"
  | info => "INFO"
  | debug => "DEBUG"

/-- The name under which the journal shows a level. -/
def title : Level → String
  | emergency => "Emergency"
  | alert => "Alert"
  | critical => "Critical"
  | error => "Error"
  | warning => "Warning"
  | notice => "Notice"
  | info => "Info"
  | debug => "Debug"

def ofLowerToken? (token : String) : Option Level :=
  if token = "emerg" ∨ token = "emergency" then some emergency
  else if token = "alert" then some alert
  else if token = "crit" ∨ token = "critical" then some critical
  else if token = "err" ∨ token = "error" then some error
  else if token = "warning" ∨ token = "warn" then some warning
  else if token = "notice" then some notice
  else if token = "info" then some info
  else if token = "debug" then some debug
  else none

/-- Only the ASCII letters are folded, so `İNFO` names no level. -/
def asciiLower (token : String) : String :=
  String.ofList (token.toList.map Char.toLower)

def ofToken? (token : String) : Option Level :=
  ofLowerToken? (asciiLower token)

/-- What is said of a token that names no level. -/
def invalidMessage (token : String) : String :=
  "invalid level `" ++ token ++
    "`, valid values: EMERG, ALERT, CRIT, ERR, WARNING, NOTICE, INFO, DEBUG"

/-- Stable: levels of one priority keep their order. -/
def sortBySeverity (levels : List Level) : List Level :=
  levels.mergeSort (fun a b => a.priority ≤ b.priority)

theorem mem_all (level : Level) : level ∈ all := by
  cases level <;> simp [all]

theorem priority_injective {a b : Level} (h : a.priority = b.priority) : a = b := by
  cases a <;> cases b <;> simp_all [priority]

theorem ofToken?_token (level : Level) : ofToken? level.token = some level := by
  cases level <;> decide +kernel

end Level

end ErrorTaxonomy
