import KvServer.CommandLine.Options

/-!
# Texts of the command line

The version and the help text.  In the help text the purposes of the options stand in one column.
-/

namespace KvServer.CommandLine

def programName : String := "kece"

def programVersion : String := "0.1.0"

def versionText : String := programName ++ " " ++ programVersion ++ "\n"

def names (o : CommandOption) : String :=
  let short := match o.short? with
    | some c => "-" ++ c.toString ++ ", "
    | none => "    "
  "  " ++ short ++ "--" ++ o.long ++ (o.valueName?.elim "" fun name ↦ " <" ++ name ++ ">")

def helpLine (o : CommandOption) : String :=
  let width := (CommandOption.all.map fun o ↦ (names o).length).foldl max 0
  let gap := width - (names o).length + 2
  names o ++ .ofList (List.replicate gap ' ') ++ o.purpose ++ "\n"

def usageText : String := "Usage: " ++ programName ++ " [OPTIONS]\n"

def helpText : String :=
  "Line-protocol key-value server\n\n" ++ usageText ++ "\nOptions:\n" ++
    String.join (CommandOption.all.map helpLine)

end KvServer.CommandLine
