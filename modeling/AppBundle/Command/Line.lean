import AppBundle.Command.Arguments
import AppBundle.Command.Package
import AppBundle.Command.Show

namespace AppBundle

/-!
The command line. Arguments are read from left to right, and the first that asks for information or
is at fault decides.
-/

inductive Command where
  | package (request : PackageRequest)
  | show (descriptor : Path)
deriving DecidableEq

/-- Why a command line is no command. -/
inductive Stop where
  | help
  | version
  | misuse
deriving DecidableEq

def versionText : String := "classloader-model 0.1.0\n"

def helpText : String :=
  "Usage: classloader-model package --graph <GRAPH> --output <OUTPUT> [OPTIONS]\n" ++
    "       classloader-model show <DESCRIPTOR>\n"

/-- How a run of the program ended: its exit code and what it printed. -/
structure Exit where
  code : Nat
  printed : String
deriving DecidableEq

def Stop.exit : Stop → Exit
  | .help => ⟨0, helpText⟩
  | .version => ⟨0, versionText⟩
  | .misuse => ⟨2, ""⟩

/-- A result is printed as JSON; a failure leaves standard output empty. -/
def Exit.ofResult {α : Type} (toJson : α → Json) : Except Failure α → Exit
  | .ok value => ⟨0, (toJson value).render true ++ "\n"⟩
  | .error _ => ⟨1, ""⟩

namespace OptionName

def help : OptionName := ⟨"help", some 'h', false⟩
def version : OptionName := ⟨"version", some 'V', false⟩
def graph : OptionName := ⟨"graph", some 'g', true⟩
def output : OptionName := ⟨"output", some 'o', true⟩
def configuration : OptionName := ⟨"config", some 'c', true⟩
def policy : OptionName := ⟨"policy", none, true⟩
def compact : OptionName := ⟨"compact", none, false⟩
def localRepository : OptionName := ⟨"local-repository", none, true⟩
def concurrency : OptionName := ⟨"concurrency", some 'j', true⟩
def checksums : OptionName := ⟨"checksums", none, false⟩

end OptionName

/-- Reads decimal digits as a count; a plus sign may stand before them. -/
def readCountText (text : String) : Option Nat :=
  let digits :=
    match text.toList with
    | '+' :: rest => rest
    | chars => chars
  if digits = [] ∨ !digits.all Char.isDigit then none
  else
    let value := digits.foldl (fun total digit => 10 * total + (digit.toNat - '0'.toNat)) 0
    if value < Json.wordLimit then some value else none

def readWordCount (word : RawText) : Option Nat :=
  word.text?.bind readCountText

def readWordPolicy (word : RawText) : Option MergePolicy :=
  word.text?.bind fun name => (MergePolicy.parse name).toOption

def readWordPath (word : RawText) : Option Path :=
  if word = "" then none else some ⟨word⟩

structure PackageDraft where
  graph : Option Path
  output : Option Path
  configuration : Option Path
  policy : Option MergePolicy
  compact : Option Unit
  localRepository : Option Path
  concurrency : Option Nat
  checksums : Option Unit

namespace PackageDraft

def empty : PackageDraft :=
  ⟨none, none, none, none, none, none, none, none⟩

/-- The value of an option that was not given before. -/
def once {α : Type} (earlier : Option α) (value : Option α) : Except Stop (Option α) :=
  match earlier, value with
  | none, some value => .ok (some value)
  | _, _ => .error .misuse

def options : List OptionName :=
  [.help, .graph, .output, .configuration, .policy, .compact, .localRepository, .concurrency,
    .checksums]

def addSetting (draft : PackageDraft) (option : OptionName) (value : RawText) :
    Except Stop PackageDraft := do
  if option = .graph then
    return { draft with graph := ← once draft.graph (readWordPath value) }
  else if option = .output then
    return { draft with output := ← once draft.output (readWordPath value) }
  else if option = .configuration then
    return { draft with configuration := ← once draft.configuration (readWordPath value) }
  else if option = .policy then
    return { draft with policy := ← once draft.policy (readWordPolicy value) }
  else if option = .localRepository then
    return { draft with localRepository := ← once draft.localRepository (readWordPath value) }
  else if option = .concurrency then
    return { draft with concurrency := ← once draft.concurrency (readWordCount value) }
  else throw .misuse

def add (draft : PackageDraft) : Argument → Except Stop PackageDraft
  | .flag option =>
      if option = .help then throw .help
      else if option = .compact then
        return { draft with compact := ← once draft.compact (some ()) }
      else if option = .checksums then
        return { draft with checksums := ← once draft.checksums (some ()) }
      else throw .misuse
  | .setting option value => draft.addSetting option value
  | .plain _ => throw .misuse
  | .faulty => throw .misuse

def finish (draft : PackageDraft) : Except Stop PackageRequest :=
  match draft.graph, draft.output with
  | some graph, some output =>
      .ok ⟨graph, output, draft.configuration, draft.policy, draft.compact.isSome,
        draft.localRepository, draft.concurrency, draft.checksums.isSome⟩
  | _, _ => .error .misuse

end PackageDraft

def PackageRequest.ofWords (words : List RawText) : Except Stop PackageRequest := do
  let draft ← (Argument.ofWords PackageDraft.options words).foldlM PackageDraft.add .empty
  draft.finish

def addDescriptor (descriptor : Option Path) : Argument → Except Stop (Option Path)
  | .flag _ => .error .help
  | .plain word => PackageDraft.once descriptor (readWordPath word)
  | .setting _ _ => .error .misuse
  | .faulty => .error .misuse

def readDescriptorPath (words : List RawText) : Except Stop Path := do
  match ← (Argument.ofWords [.help] words).foldlM addDescriptor none with
  | some descriptor => return descriptor
  | none => throw .misuse

namespace Command

def packageNames : List RawText := ["package", "p"]

def showNames : List RawText := ["show", "s"]

def helpName : RawText := "help"

/-- What an option before any command asks for. -/
def stopOf (word : RawText) (rest : List RawText) : Stop :=
  match (Argument.ofWord [.help, .version] word rest).1 with
  | .flag option :: _ => if option = .version then .version else .help
  | _ => .misuse

/-- Help is given for the whole command line or for one command. -/
def helpOn : List RawText → Stop
  | [] => .help
  | [name] => if name ∈ helpName :: (packageNames ++ showNames) then .help else .misuse
  | _ => .misuse

def ofWords : List RawText → Except Stop Command
  | [] => .error .misuse
  | word :: rest =>
      if word ∈ packageNames then (PackageRequest.ofWords rest).map package
      else if word ∈ showNames then (readDescriptorPath rest).map Command.show
      else if word = helpName then .error (helpOn rest)
      else .error (stopOf word rest)

def run (home : Path) (words : List RawText) (files : FileSystem) : FileSystem × Exit :=
  match ofWords words with
  | .error stop => (files, stop.exit)
  | .ok (package request) =>
      let (changed, result) := request.run home files
      (changed, Exit.ofResult Report.toJson (result >>= Report.printable))
  | .ok (Command.show descriptor) =>
      (files, Exit.ofResult Summary.toJson (showDescriptor files descriptor))

end Command

end AppBundle
