import ErrorTaxonomy.Configuration
import ErrorTaxonomy.Files.FileTree
import ErrorTaxonomy.Toml.Decoder
import ErrorTaxonomy.Traced

/-!
# Finding the configuration

A configuration file that is named is the one to use, whether it is there or not.
Otherwise it is looked for in the current directory and then in the user's
configuration directory, and without one the defaults hold.
-/

namespace ErrorTaxonomy

inductive ConfigurationError where
  | unparsable (path message : String)
  | missingFile (path : String)
  | unreadable (path : String) (fault : SystemFault)
  deriving DecidableEq

namespace ConfigurationError

def message : ConfigurationError → String
  | unparsable path message =>
      "Failed to parse TOML configuration `" ++ path ++ "`: " ++ message
  | missingFile path => "Missing configuration file: " ++ path
  | unreadable path fault =>
      "Failed to read configuration `" ++ path ++ "`: " ++ fault.message

def path : ConfigurationError → String
  | unparsable path _ => path
  | missingFile path => path
  | unreadable path _ => path

end ConfigurationError

/-- What the system refuses to do when an output is written, for reasons that the
files do not show: a full disk, a missing permission. -/
structure Refusals where
  creating : Option SystemFault := none
  filling : Option SystemFault := none
  replacing : Option SystemFault := none
  deriving DecidableEq

/-- The files of a computer, and where its user's configuration file would be. -/
structure Host where
  tree : FileTree
  userConfiguration : Option String
  refusals : Refusals := {}

/-- The user's configuration file.  A directory that is set for configurations
counts if its path is absolute; otherwise there is one in the home directory. -/
def userConfigurationPath (configurations home : Option String) : Option String :=
  let absolute := configurations.filter fun path => path.toList.head? = some '/'
  let inHome := (home.filter (· ≠ "")).map fun path => joinPath path ".config"
  (absolute.or inHome).map fun path => joinPath path "errtax/config.toml"

def localConfiguration : String :=
  "errtax/config.toml"

inductive ConfigurationOrigin where
  | explicit (path : String)
  | localFile (path : String)
  | userFile (path : String)
  | default
  deriving DecidableEq

/-- The first place that applies. -/
def configurationOrigin (host : Host) (explicit : Option String) : ConfigurationOrigin :=
  match explicit with
  | some path => .explicit path
  | none =>
      if host.tree.pathExists localConfiguration then .localFile localConfiguration
      else
        match host.userConfiguration with
        | none => .default
        | some path => if host.tree.pathExists path then .userFile path else .default

def readConfigurationFile (tree : FileTree) (path : String) :
    Except ConfigurationError Configuration :=
  if tree.pathExists path then do
    let text ← (tree.readText path).mapError (.unreadable path)
    (Toml.decode readConfiguration text).mapError (.unparsable path)
  else .error (.missingFile path)

def configurationEntry (level : LogLevel) (message : String)
    (details : List (String × String)) : JournalEntry where
  level
  component := "errtax_cli::config"
  message
  details

/-- The journal's remarks on the place where a configuration was found. -/
def configurationRemarks (host : Host) : ConfigurationOrigin → List JournalEntry
  | .explicit path =>
      [configurationEntry .info "Loading configuration from explicit path" [("path", path)]]
  | .localFile path =>
      [configurationEntry .info "Loading configuration from local path" [("path", path)]]
  | .userFile path =>
      [configurationEntry .info "Loading configuration from system path" [("path", path)]]
  | .default =>
      [match host.userConfiguration with
       | some path =>
           configurationEntry .debug "System configuration file not found" [("path", path)]
       | none =>
           configurationEntry .debug
             "Could not determine platform-specific config directory" [],
       configurationEntry .debug "No configuration file found, using default configuration" []]

def ConfigurationOrigin.read (tree : FileTree) :
    ConfigurationOrigin → Except ConfigurationError Configuration
  | explicit path => readConfigurationFile tree path
  | localFile path => readConfigurationFile tree path
  | userFile path => readConfigurationFile tree path
  | default => .ok {}

def findConfiguration (host : Host) (explicit : Option String) :
    Traced ConfigurationError Configuration :=
  let origin := configurationOrigin host explicit
  { journal := configurationRemarks host origin
    outcome := origin.read host.tree }

end ErrorTaxonomy
