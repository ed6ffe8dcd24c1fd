/-!
The page that explains a command.
-/

namespace Chip8.CommandLine

structure HelpPage where
  about : String := ""
  usage : String
  /-- Headings, each with rows of a term and its meaning. -/
  parts : List (String × List (String × String)) := []
  deriving DecidableEq, Repr

namespace HelpPage

/-- Terms are filled up to the longest, so that their meanings stand below each other. -/
def rows (entries : List (String × String)) : String :=
  let longest := entries.foldl (fun n (term, _) => max n term.length) 2
  String.join (entries.map fun (term, meaning) =>
    "  " ++ String.ofList (term.toList.rightpad longest ' ') ++ "  " ++ meaning ++ "\n")

def text (page : HelpPage) : String :=
  (if page.about.isEmpty then "" else page.about ++ "\n\n") ++ "Usage: " ++ page.usage ++ "\n"
    ++ String.join (page.parts.map fun (heading, entries) =>
        if entries.isEmpty then "" else "\n" ++ heading ++ ":\n" ++ rows entries)

def helpSwitch : String × String := ("-h, --help", "Print help")

end HelpPage

end Chip8.CommandLine
