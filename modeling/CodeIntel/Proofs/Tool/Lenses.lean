import CodeIntel.Proofs.Client.Questions
import CodeIntel.Proofs.Client.Serving
import CodeIntel.Proofs.Text.Numeral
import CodeIntel.Proofs.Tool.Program

/-!
# Code lenses by number

One tool lists the code lenses of a file under numbers, another one executes the
lens with a number. For a server that tells both of them the same lenses, the
number means the same lens. Its command is executed as it is shown, and a lens
that is shown without one is resolved first.
-/

namespace CodeIntel

/-! # Rows -/

namespace Report

def commandRow (n : Nat) (range : Range) (command : Command) : String :=
  line s!"{n}. {rangeText range}: {command.title}" ++ commandLine command ++
    argumentsLine command.arguments

def unresolvedRow (n : Nat) (range : Range) : String :=
  line s!"{n}. {rangeText range}: (unresolved)"

def lensHeading (path : FilePath) (lenses : List CodeLens) : String :=
  if lenses.isEmpty then s!"No code lenses found in {path.text}"
  else line s!"Code Lenses in {path.text} ({lenses.length}):\n"

def lensRows (lenses : List CodeLens) : List String :=
  lenses.mapIdx fun i lens => codeLens (i + 1) lens

theorem codeLenses_eq (path : FilePath) (lenses : List CodeLens) :
    codeLenses path lenses = lensHeading path lenses ++
      String.join (lensRows lenses) := by
  rw [codeLenses, lensHeading]
  split
  · next hempty =>
      rw [List.isEmpty_iff.mp hempty]
      exact (String.append_empty).symm
  · rfl

theorem length_lensRows (lenses : List CodeLens) :
    (lensRows lenses).length = lenses.length :=
  List.length_mapIdx

theorem getElem?_lensRows {lenses : List CodeLens} {i : Nat} {lens : CodeLens}
    (h : lenses[i]? = some lens) :
    (lensRows lenses)[i]? = some (codeLens (i + 1) lens) := by
  rw [lensRows, List.getElem?_mapIdx, h, Option.map_some]

theorem codeLens_of_some {lens : CodeLens} {command : Command}
    (h : lens.command = some command) (n : Nat) :
    codeLens n lens = commandRow n lens.range command := by
  rw [codeLens, h]
  rfl

theorem codeLens_of_none {lens : CodeLens} (h : lens.command = none) (n : Nat) :
    codeLens n lens = unresolvedRow n lens.range := by
  rw [codeLens, h]
  rfl

/-! # Rows that tell themselves apart -/

theorem not_mem_rangeText (range : Range) :
    '\n' ∉ (rangeText range).toList := by
  have hplace (p : EditorPosition) : '\n' ∉ p.text.toList := by
    show '\n' ∉ ("L" ++ toString p.line ++ ":C" ++ toString p.column).toList
    simp [Numeral.not_mem_toDigits]
  show '\n' ∉ ((EditorPosition.ofPosition range.start).text ++ " - " ++
    (EditorPosition.ofPosition range.stop).text).toList
  simp [hplace]

theorem count_line (text : String) :
    (line text).toList.count '\n' = text.toList.count '\n' + 1 := by
  simp [line]

theorem count_unresolvedRow (n : Nat) (range : Range) :
    (unresolvedRow n range).toList.count '\n' = 1 := by
  have htext : '\n' ∉ (s!"{n}. {rangeText range}: (unresolved)").toList := by
    show '\n' ∉ (toString n ++ ". " ++ rangeText range ++
      ": (unresolved)").toList
    simp [Numeral.not_mem_toDigits, not_mem_rangeText]
  rw [unresolvedRow, count_line, List.count_eq_zero.mpr htext]

theorem lt_count_commandRow (n : Nat) (range : Range) (command : Command) :
    1 < (commandRow n range command).toList.count '\n' := by
  rw [commandRow, commandLine, String.toList_append, String.toList_append,
    List.count_append, List.count_append, count_line, count_line]
  omega

def IsUnresolved (row : String) : Prop :=
  ∃ n range, row = unresolvedRow n range

theorem not_isUnresolved_commandRow (n : Nat) (range : Range)
    (command : Command) :
    ¬ IsUnresolved (commandRow n range command) := by
  rintro ⟨m, other, heq⟩
  have hlines := lt_count_commandRow n range command
  rw [heq, count_unresolvedRow] at hlines
  exact Nat.lt_irrefl 1 hlines

end Report

namespace Tool

variable {σ : Type}

open Report (lensHeading lensRows commandRow unresolvedRow IsUnresolved)
open Client (Asks Asked)

/-! # What comes of a number -/

abbrev Result (σ : Type) := Except ToolFault String × Client σ

/-- The call is rejected for its arguments, and nothing has been written since
`c`. -/
def IsRejected (c : Client σ) (result : Result σ) : Prop :=
  ∃ f, result.1 = .error f ∧
    (AgentError.ofFault f).code = AgentError.invalidParams ∧
    result.2.connection.wire = c.connection.wire

/-- The command is put to the server with its arguments, and nothing else is.
The call reports what is answered. -/
def Executes (command : Command) (c : Client σ) (result : Result σ) : Prop :=
  let answered := Client.executeCommand command c
  Asks "workspace/executeCommand"
    (.ofMembers [("command", .str command.command),
    ("arguments", .arr (command.arguments.getD []))]) c answered ∧
  result = ((answered.1.mapError .client).map (executedText command),
    answered.2)

/-- What comes of a lens that is resolved first. Unless there is a command in
the answer, the call fails and nothing more is asked. -/
inductive Resolves (lens : CodeLens) (c : Client σ) : Result σ → Prop where
  | unanswered {f : ClientFault} {resolved : Client σ}
    (hanswer : Client.resolveCodeLens lens c = (.error f, resolved)) :
    Resolves lens c (.error (.client f), resolved)
  | unable {found : CodeLens} {resolved : Client σ} {reason : String}
    (hanswer : Client.resolveCodeLens lens c = (.ok found, resolved))
    (hnone : found.command = none) :
    Resolves lens c (.error (.invalidArguments reason), resolved)
  | able {found : CodeLens} {resolved : Client σ} {command : Command}
      {result : Result σ}
    (hanswer : Client.resolveCodeLens lens c = (.ok found, resolved))
    (hsome : found.command = some command)
    (hexecutes : Executes command resolved result) :
    Resolves lens c result

theorem asks_resolveCodeLens (lens : CodeLens) (c : Client σ) :
    Asks "codeLens/resolve" lens.toJson c (Client.resolveCodeLens lens c) :=
  Client.asks_request Request.resolveCodeLens lens.toJson c

/-- Something has been asked since `c`, or the call failed with the
connection. -/
def Speaks (c : Client σ) (result : Result σ) : Prop :=
  (∃ question questions, Asked (question :: questions) c result.2) ∨
    result.1 = .error (.client .disconnected)

theorem Speaks.not_isRejected {c : Client σ} {result : Result σ}
    (h : Speaks c result) :
    ¬ IsRejected c result := by
  rintro ⟨f, hfault, hcode, hwire⟩
  rcases h with ⟨question, questions, hasked⟩ | hlost
  · exact hasked.wire_ne (List.cons_ne_nil _ _) hwire
  · have hf : f = .client .disconnected :=
      Except.error.inj (hfault.symm.trans hlost)
    rw [hf] at hcode
    exact absurd hcode (by decide)

/-- A question is followed by more of them, if by anything. -/
theorem Speaks.trans {a b : Client σ} {question : String × Json}
    {result : Result σ} (hasked : Asked [question] a b) (h : Speaks b result) :
    Speaks a result := by
  rcases h with ⟨next, questions, hmore⟩ | hlost
  · exact .inl ⟨question, next :: questions, hasked.trans hmore⟩
  · exact .inr hlost

theorem Executes.speaks {command : Command} {c : Client σ} {result : Result σ}
    (h : Executes command c result) : Speaks c result := by
  rcases h with ⟨hasks, rfl⟩
  generalize Client.executeCommand command c = answered at hasks ⊢
  cases hasks with
  | asked hlive hasked =>
      exact .inl ⟨_, [], hasked⟩
  | lost hlost hwire =>
      exact .inr rfl

theorem Resolves.speaks {lens : CodeLens} {c : Client σ} {result : Result σ}
    (h : Resolves lens c result) : Speaks c result := by
  have hasks := asks_resolveCodeLens lens c
  cases h with
  | unanswered hanswer =>
      rw [hanswer] at hasks
      cases hasks with
      | asked hlive hasked =>
          exact .inl ⟨_, [], hasked⟩
      | lost hlost hwire =>
          exact .inr rfl
  | unable hanswer hnone =>
      -- there is an answer, so the connection was not lost
      rw [hanswer] at hasks
      cases hasks with
      | asked hlive hasked =>
          exact .inl ⟨_, [], hasked⟩
  | able hanswer hsome hexecutes =>
      rw [hanswer] at hasks
      cases hasks with
      | asked hlive hasked =>
          exact hexecutes.speaks.trans hasked

/-! # Steps of the call -/

theorem ask_apply {α : Type} (step : ClientM σ α) (c : Client σ) :
    ask step c = ((step c).1.mapError .client, (step c).2) := rfl

def executeOf (index : Nat) (lens : CodeLens) : ToolM σ String :=
  match lens.command with
  | none =>
    throw (.invalidArguments s!"code lens {index} has no command to execute")
  | some command => do
    let result ← ask (Client.executeCommand command)
    pure (executedText command result)

theorem executes_executeOf {lens : CodeLens} {command : Command}
    (h : lens.command = some command) (index : Nat) (c : Client σ) :
    Executes command c (executeOf index lens c) := by
  refine ⟨Client.asks_request Request.executeCommand _ c, ?_⟩
  rw [executeOf, h]
  dsimp only
  rw [bind_apply, ask_apply]
  cases (Client.executeCommand command c).1 <;> rfl

theorem resolves_executeOf {lens : CodeLens} (h : lens.command = none)
    (index : Nat) (c : Client σ) :
    Resolves lens c ((resolvedLens lens >>= executeOf index) c) := by
  have hstep : (resolvedLens lens : ToolM σ CodeLens) =
      ask (Client.resolveCodeLens lens) := by
    rw [resolvedLens, h]
    rfl
  rw [hstep, bind_apply, ask_apply]
  cases hanswer : Client.resolveCodeLens lens c with
  | mk answer resolved =>
      cases answer with
      | error f =>
          exact .unanswered hanswer
      | ok found =>
          cases hfound : found.command with
          | none =>
              show Resolves lens c (executeOf index found resolved)
              rw [executeOf, hfound]
              exact .unable hanswer hfound
          | some command =>
              exact .able hanswer hfound
                (executes_executeOf hfound index resolved)

/-! # Picking a lens -/

theorem pickLens_of_outside {index : Nat} {lenses : List CodeLens}
    (h : index = 0 ∨ lenses.length < index) :
    pickLens index lenses = .error (noSuchLens index lenses.length) := by
  cases index with
  | zero =>
      rfl
  | succ i =>
      have hnone : lenses[i]? = none := List.getElem?_eq_none (by omega)
      simp only [pickLens, Nat.add_sub_cancel, hnone]

theorem pickLens_of_inside {i : Nat} {lenses : List CodeLens} {lens : CodeLens}
    (h : lenses[i]? = some lens) : pickLens (i + 1) lenses = .ok lens := by
  simp only [pickLens, Nat.add_sub_cancel, h]

/-! # The two tools -/

section Listed

variable {file : String} {c listed : Client σ} {lenses : List CodeLens}
  (hoffered : c.capabilities.supports .codeLens = true)
  (hlisted : Client.codeLenses (c.root.joinTo (.ofString file)) c =
    (.ok lenses, listed))
include hoffered hlisted

theorem bind_listed {α : Type} (next : FilePath → List CodeLens → ToolM σ α) :
    (do
      requireFeature .codeLens "code lens"
      let path ← resolvePath file
      let lenses ← ask (Client.codeLenses path)
      next path lenses) c =
      next (c.root.joinTo (.ofString file)) lenses listed := by
  rw [bind_apply, requireFeature_apply, if_pos hoffered]
  dsimp only
  rw [bind_apply, resolvePath_apply]
  dsimp only
  rw [bind_apply, ask_eq_ok.mpr hlisted]

theorem getCodeLens_of_listed : getCodeLens file c =
    (.ok (Report.codeLenses (c.root.joinTo (.ofString file)) lenses), listed) :=
  bind_listed hoffered hlisted fun path lenses =>
    pure (Report.codeLenses path lenses)

theorem executeCodeLens_of_listed (index : Nat) : executeCodeLens file index c =
    (liftExcept (pickLens index lenses) >>= fun lens => resolvedLens lens >>=
      executeOf index) listed :=
  bind_listed hoffered hlisted fun _ lenses =>
    liftExcept (pickLens index lenses) >>= fun lens =>
      resolvedLens lens >>= executeOf index

theorem isRejected_of_outside {index : Nat}
    (h : index = 0 ∨ lenses.length < index) :
    IsRejected listed (executeCodeLens file index c) := by
  rw [executeCodeLens_of_listed hoffered hlisted, pickLens_of_outside h]
  exact ⟨_, rfl, rfl, rfl⟩

theorem executes_of_inside {i : Nat} {lens : CodeLens} {command : Command}
    (h : lenses[i]? = some lens) (hcommand : lens.command = some command) :
    Executes command listed (executeCodeLens file (i + 1) c) := by
  have hresolved : (resolvedLens lens : ToolM σ CodeLens) = pure lens := by
    rw [resolvedLens, hcommand]
    rfl
  rw [executeCodeLens_of_listed hoffered hlisted, pickLens_of_inside h]
  show Executes command listed
    ((resolvedLens lens >>= executeOf (i + 1)) listed)
  rw [hresolved, pure_bind]
  exact executes_executeOf hcommand (i + 1) listed

theorem resolves_of_inside {i : Nat} {lens : CodeLens}
    (h : lenses[i]? = some lens) (hnone : lens.command = none) :
    Resolves lens listed (executeCodeLens file (i + 1) c) := by
  rw [executeCodeLens_of_listed hoffered hlisted, pickLens_of_inside h]
  exact resolves_executeOf hnone (i + 1) listed

end Listed

/-- The tools agree on numbers. Both are told the same lenses for a file, which
need not be at the same time. The one lists them in rows that are numbered from
one. The other rejects a number, without writing anything more, iff no row has
it. Otherwise it either executes the command that the row with the number shows,
and asks nothing else, or the row shows none: then it asks for the command of
that very lens, and executes what it is told, or fails if it is told of no
command. -/
theorem lens_numbers_agree {file : String} {c listed d again : Client σ}
    {lenses : List CodeLens} (hc : c.capabilities.supports .codeLens = true)
    (hlisted : Client.codeLenses (c.root.joinTo (.ofString file)) c =
      (.ok lenses, listed))
    (hd : d.capabilities.supports .codeLens = true)
    (hagain : Client.codeLenses (d.root.joinTo (.ofString file)) d =
      (.ok lenses, again)) :
    let rows := lensRows lenses
    getCodeLens file c =
    (.ok (lensHeading (c.root.joinTo (.ofString file)) lenses ++
      String.join rows), listed) ∧
    ∀ index, let result := executeCodeLens file index d
      (IsRejected again result ↔ index = 0 ∨ rows.length < index) ∧
      (¬ (index = 0 ∨ rows.length < index) → ∃ lens row,
        lenses[index - 1]? = some lens ∧ rows[index - 1]? = some row ∧
        (¬ IsUnresolved row ∧ (∃ command, lens.command = some command ∧
            row = commandRow index lens.range command ∧
            Executes command again result) ∨
          IsUnresolved row ∧ lens.command = none ∧
          row = unresolvedRow index lens.range ∧
            Asks "codeLens/resolve" lens.toJson again
              (Client.resolveCodeLens lens again) ∧
            Resolves lens again result)) := by
  intro rows
  have hlength : rows.length = lenses.length := Report.length_lensRows lenses
  refine ⟨?_, ?_⟩
  · rw [getCodeLens_of_listed hc hlisted, Report.codeLenses_eq]
  intro index result
  rw [hlength]
  by_cases houtside : index = 0 ∨ lenses.length < index
  · have hrejected := isRejected_of_outside hd hagain houtside
    exact ⟨iff_of_true hrejected houtside, fun hinside =>
      absurd houtside hinside⟩
  · obtain ⟨i, rfl⟩ : ∃ i, index = i + 1 := Nat.exists_eq_add_one.mpr (by omega)
    obtain ⟨lens, hlens⟩ : ∃ lens, lenses[i]? = some lens :=
      ⟨_, List.getElem?_eq_getElem (by omega)⟩
    have hrow : rows[i]? = some (Report.codeLens (i + 1) lens) :=
      Report.getElem?_lensRows hlens
    cases hcommand : lens.command with
    | some command =>
        have hexecutes := executes_of_inside hd hagain hlens hcommand
        refine ⟨iff_of_false hexecutes.speaks.not_isRejected houtside,
          fun _ => ?_⟩
        have hshown := Report.codeLens_of_some hcommand (i + 1)
        refine ⟨lens, _, hlens, hrow,
          .inl ⟨?_, command, hcommand, hshown, hexecutes⟩⟩
        rw [hshown]
        exact Report.not_isUnresolved_commandRow (i + 1) lens.range command
    | none =>
        have hresolves := resolves_of_inside hd hagain hlens hcommand
        refine ⟨iff_of_false hresolves.speaks.not_isRejected houtside,
          fun _ => ?_⟩
        have hshown := Report.codeLens_of_none hcommand (i + 1)
        exact ⟨lens, _, hlens, hrow, .inr ⟨⟨_, _, hshown⟩, hcommand, hshown,
          asks_resolveCodeLens lens again, hresolves⟩⟩

/-! # Two lenses -/

def runTests : Command := ⟨"Run", "run", some [.str "all"]⟩

def testLens : CodeLens := ⟨⟨⟨0, 0⟩, ⟨0, 1⟩⟩, some runTests, none⟩

/-- A lens whose command the server works out when it is asked for it. -/
def usesLens : CodeLens := ⟨⟨⟨1, 0⟩, ⟨1, 1⟩⟩, none, some (.str "uses")⟩

def lensAnswer : String → Json → Outcome
  | "textDocument/codeLens", _ =>
    .ok (.ofList CodeLens.toJson [testLens, usesLens])
  | "codeLens/resolve", lens =>
    .ok (lens.set "command" (Command.toJson ⟨"2 uses", "uses", none⟩))
  | _, _ => .ok .null

theorem isReadable_lensAnswer (method : String) (params : Json) :
    Message.IsReadable (lensAnswer method params) := by
  unfold lensAnswer
  split <;> exact Message.isReadable_ok _

def lensClient : Client Unit :=
  { Client.twoLines with
    peer := .answering lensAnswer
    capabilities := .ofInitializeResult
      (.ofMembers [("capabilities",
        .ofMembers [("codeLensProvider", .empty)])]) }

theorem isServed_lensClient : lensClient.IsServed lensAnswer :=
  ⟨⟨rfl, rfl⟩, rfl, rfl, rfl, Nat.le_refl 0, List.forall_mem_nil _⟩

theorem codeLenses_of_opened {c opened : Client Unit}
    (h : c.IsServed lensAnswer) {path : FilePath} {uri : Url}
    (hopen : Client.openFile path c = (.ok uri, opened)) :
    ∃ params,
      Client.ServesAlike lensAnswer c
        (opened.called lensAnswer "textDocument/codeLens" params) ∧
      Client.codeLenses path c = (.ok [testLens, usesLens],
        opened.called lensAnswer "textDocument/codeLens" params) := by
  have hopened := Client.spares_openFile path c h
  rw [hopen] at hopened
  have hasked :=
    hopened.served.request_apply isReadable_lensAnswer Request.codeLens
    (Members.toJson (Members.document uri))
  refine ⟨Members.toJson (Members.document uri),
    hopened.trans (hopened.served.called_alike _ _), ?_⟩
  rw [Client.codeLenses, bind_apply, Client.askDocument, bind_apply, hopen]
  dsimp only
  rw [hasked]
  rfl

/-- A client lists two lenses, and may execute the first as it is and the second
once it is resolved. There is no third. -/
theorem lens_numbers_agree_on_two : ∃ listed again : Client Unit,
    lensClient.capabilities.supports .codeLens = true ∧
    Client.codeLenses (lensClient.root.joinTo (.ofString "a")) lensClient =
      (.ok [testLens, usesLens], listed) ∧
    listed.capabilities.supports .codeLens = true ∧
    Client.codeLenses (listed.root.joinTo (.ofString "a")) listed =
      (.ok [testLens, usesLens], again) ∧
    Executes runTests again (executeCodeLens "a" 1 listed) ∧
    Resolves usesLens again (executeCodeLens "a" 2 listed) ∧
    IsRejected again (executeCodeLens "a" 3 listed) := by
  have hpath : lensClient.root.joinTo (.ofString "a") = Client.smallFile := by
    decide
  have hfirst := Client.openFile_smallFile (c := lensClient) ⟨rfl, rfl⟩ rfl rfl
  obtain ⟨params, halike, hlisted⟩ :=
    codeLenses_of_opened isServed_lensClient hfirst
  have hc : lensClient.capabilities.supports .codeLens = true := by
    decide
  generalize hafter :
    (lensClient.withOpened Client.smallFile Client.smallDocument).called
    lensAnswer "textDocument/codeLens" params = listed at halike hlisted
  rw [← hpath] at hlisted
  have hd : listed.capabilities.supports .codeLens = true := by
    rw [← hafter]
    exact hc
  have hroot : listed.root = lensClient.root := by
    rw [← hafter]
    rfl
  have hopen :
      (Client.openFile Client.smallFile listed).1 = .ok ⟨"file:///a"⟩ := by
    rw [halike.opens, hfirst]
  obtain ⟨_, -, hagain⟩ :=
    codeLenses_of_opened halike.served (Prod.ext hopen rfl)
  rw [← hpath, ← hroot] at hagain
  obtain ⟨-, hnumbers⟩ := lens_numbers_agree hc hlisted hd hagain
  refine ⟨listed, _, hc, hlisted, hd, hagain, ?_, ?_,
    (hnumbers 3).1.mpr (.inr (by decide))⟩
  · obtain ⟨lens, row, hlens, -, hshown⟩ := (hnumbers 1).2 (by decide)
    obtain rfl : testLens = lens := Option.some.inj hlens
    rcases hshown with ⟨-, command, hcommand, -, hexecutes⟩ | ⟨-, hnone, -⟩
    · rwa [← Option.some.inj hcommand] at hexecutes
    · exact nomatch hnone
  · obtain ⟨lens, row, hlens, -, hshown⟩ := (hnumbers 2).2 (by decide)
    obtain rfl : usesLens = lens := Option.some.inj hlens
    rcases hshown with ⟨-, command, hcommand, -⟩ | ⟨-, -, -, -, hresolves⟩
    · exact nomatch hcommand
    · exact hresolves

end Tool
end CodeIntel
