import CodeIntel.Json.Printer
import CodeIntel.Protocol.CodeAction
import CodeIntel.Protocol.Completion
import CodeIntel.Report.Place
import CodeIntel.Sorting
import CodeIntel.Text.Lines
import CodeIntel.Totals

/-!
# Reports on actions, lenses, renames and completions
-/

namespace CodeIntel
namespace Report

/-! # Code actions -/

/-- The labels of the kinds that begin with a known text; the first match
counts. -/
def actionKindLabels : List (String × String) :=
  [("quickfix", "QuickFix"), ("refactor.extract", "Refactor.Extract"),
    ("refactor.inline", "Refactor.Inline"),
    ("refactor.rewrite", "Refactor.Rewrite"),
    ("refactor", "Refactor"),
    ("source.organizeImports", "Source.OrganizeImports"),
    ("source.fixAll", "Source.FixAll"), ("source", "Source")]

def actionKind (kind : Option String) : String :=
  match kind with
  | none => "Unknown"
  | some kind =>
    if kind.isEmpty then "Unknown"
    else
      match actionKindLabels.find? fun e =>
        e.1.toList.isPrefixOf kind.toList with
      | some (_, label) => label
      | none => kind

def commandLine (c : Command) : String :=
  line s!"   Command: {c.command}"

def codeAction (n : Nat) : CodeActionEntry → String
  | .action a =>
    line s!"{n}. [{actionKind a.kind}] {a.title}" ++
      (a.command.map commandLine).getD ""
  | .command c => line s!"{n}. [Command] {c.title}" ++ commandLine c
  | .unrecognized _ => line s!"{n}. Unknown action type"

/-- Actions and bare commands, with a blank line between them. -/
def codeActions (entries : List CodeActionEntry) : String :=
  if entries.isEmpty then "No code actions available"
  else
    line s!"Code Actions ({entries.length} available):\n" ++
      "\n".intercalate (entries.mapIdx fun i e => codeAction (i + 1) e)

/-! # Code lenses -/

def argumentsLine : Option (List Json) → String
  | some (a :: rest) =>
    let values := ", ".intercalate ((a :: rest).map Json.render)
    line s!"   Arguments: {values}"
  | _ => ""

def codeLens (n : Nat) (l : CodeLens) : String :=
  match l.command with
  | some c =>
    line s!"{n}. {rangeText l.range}: {c.title}" ++ commandLine c ++
      argumentsLine c.arguments
  | none => line s!"{n}. {rangeText l.range}: (unresolved)"

/-- The lenses of a document under the numbers by which they are executed. -/
def codeLenses (path : FilePath) (lenses : List CodeLens) : String :=
  if lenses.isEmpty then s!"No code lenses found in {path.text}"
  else line s!"Code Lenses in {path.text} ({lenses.length}):\n" ++
    numbered codeLens lenses

/-! # Renames -/

def rename (newName : String) (files : List (FilePath × Nat)) : String :=
  let total := sumOf Prod.snd files % Nat.pow 2 64
  line (s!"Successfully renamed symbol to '{newName}': " ++
      s!"{total} edit(s) in {files.length} file(s)") ++
    String.join (files.map fun (path, n) => line s!"- {path.text}: {n} edit(s)")

/-! # Completions -/

def maxDocumentation : Nat := 100

def shortened (text : String) : String :=
  let first := ((Text.lines text.toList).head?).getD []
  if maxDocumentation < first.length then
    String.ofList (first.take (maxDocumentation - 3)) ++ "..."
  else String.ofList first

def completionKey (c : CompletionItem) : String :=
  c.sortText.getD c.label

def keyAtMost (a b : CompletionItem) : Bool :=
  !(completionKey b < completionKey a)

def completion (n : Nat) (c : CompletionItem) : String :=
  let kind := (c.kind.map CompletionKind.name).getD "Unknown"
  s!"{n}. [{kind}] {c.label}" ++
    unlessEmpty (fun d => s!"\n   Type: {d}") c.detail ++
    unlessEmpty (fun d => s!"\n   Doc: {d}") (c.documentation.map fun d =>
      shortened d.value) ++ "\n\n"

def defaultCompletionLimit : Nat := 20

def completions (response : Option Completions) (limit : Nat) : String :=
  let items := (response.map Completions.entries).getD []
  if items.isEmpty then "No completions available"
  else
    let shown := min limit items.length
    line s!"Completions ({shown} of {items.length}):\n" ++
      numbered completion ((Sorting.sortBy keyAtMost items).take shown)

end Report
end CodeIntel
