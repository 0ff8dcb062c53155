/-!
# Errors of loading

What goes wrong when definition files are read: the operating system refuses to
give out a file or a directory, a text cannot be decoded, or the metadata file
that belongs to an errors file is not there.
-/

namespace ErrorTaxonomy

inductive SystemFault where
  | notFound
  | permissionDenied
  | notADirectory
  | isADirectory
  | resourceBusy
  | invalidText
  | other (text : String)
  deriving DecidableEq

namespace SystemFault

def kind : SystemFault → String
  | notFound => "NotFound"
  | permissionDenied => "PermissionDenied"
  | notADirectory => "NotADirectory"
  | isADirectory => "IsADirectory"
  | resourceBusy => "ResourceBusy"
  | invalidText => "InvalidData"
  | other _ => "Other"

def message : SystemFault → String
  | notFound => "No such file or directory (os error 2)"
  | permissionDenied => "Permission denied (os error 13)"
  | notADirectory => "Not a directory (os error 20)"
  | isADirectory => "Is a directory (os error 21)"
  | resourceBusy => "Device or resource busy (os error 16)"
  | invalidText => "stream did not contain valid UTF-8"
  | other text => text

end SystemFault

/-- The line and the column of a faulty text count from one, where they are known. -/
inductive LoadError where
  | unreadable (path : String) (fault : SystemFault)
  | invalidText (path message : String) (line column : Option Nat)
  | missingMetadata (path : String)
  deriving DecidableEq

namespace LoadError

def message : LoadError → String
  | unreadable path fault => "failed to read `" ++ path ++ "`: " ++ fault.message
  | invalidText path message _ _ => "invalid YAML in `" ++ path ++ "`: " ++ message
  | missingMetadata path => "missing metadata file `" ++ path ++ "`"

/-- The file or directory that the error is about. -/
def path : LoadError → String
  | unreadable path _ => path
  | invalidText path _ _ _ => path
  | missingMetadata path => path

end LoadError

end ErrorTaxonomy
