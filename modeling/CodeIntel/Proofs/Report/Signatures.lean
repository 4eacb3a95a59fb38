import CodeIntel.Proofs.Text.Utf16
import Mathlib.Data.Nat.PSub

/-!
# Reports on signatures

A server may call any signature active and any stretch of a label a parameter. A
report bounds what it is told before it picks and cuts, so it can be worked out
with operations that fail out of bounds. One signature is marked, the requested
one or else the last, and what a parameter is called can be read off the
characters of the label.
-/

namespace CodeIntel
namespace Report

/-! # Operations with bounds -/

section Bounds

variable {α : Type}

def clamp? (n low high : Nat) : Option Nat :=
  if low ≤ high then some (max low (min n high)) else none

def slice? (items : List α) (start stop : Nat) : Option (List α) :=
  if start ≤ stop ∧ stop ≤ items.length then some ((items.take stop).drop start)
  else none

theorem clamp?_of_le {n low high : Nat} (h : low ≤ high) :
    clamp? n low high = some (max low (min n high)) :=
  if_pos h

theorem slice?_bounded (items : List α) (start stop : Nat) :
    slice? items (min start items.length)
        (max (min start items.length) (min stop items.length)) =
      some ((items.take stop).drop start) := by
  rw [slice?, if_pos (by omega)]
  congr 1
  rcases Nat.lt_or_ge stop (min start items.length) with hcross | hle
  · rw [Utf16.slice_eq_nil (by omega), Utf16.slice_eq_nil (by omega)]
  · rw [max_eq_right (by omega), ← List.take_eq_take_min]
    rcases Nat.le_total start items.length with hstart | hstart
    · rw [min_eq_left hstart]
    · rw [Utf16.slice_eq_nil (by omega), Utf16.slice_eq_nil (by omega)]

end Bounds

/-! # Names of parameters -/

/-- The name of a parameter by way of the units of the label. -/
def checkedLabel (signature : String) : ParameterLabel → Option String
  | .text s => some s
  | .units start stop => do
    let units := Utf16.encode signature.toList
    let first := min start units.length
    let last ← clamp? stop first units.length
    let shown ← slice? units first last
    some (String.ofList (Utf16.lossy shown))

theorem checkedLabel_eq (signature : String) (label : ParameterLabel) :
    checkedLabel signature label = some (parameterLabel signature label) := by
  cases label with
  | text s =>
      rfl
  | units start stop =>
      have hshown := Utf16.lossy_slice signature.toList start stop 0
      rw [Nat.sub_zero, Nat.sub_zero] at hshown
      simp only [checkedLabel]
      rw [clamp?_of_le (Nat.min_le_right _ _), Option.bind_eq_bind,
        Option.bind_some, slice?_bounded, Option.bind_eq_bind, Option.bind_some,
        hshown, parameterLabel]

theorem parameterLabel_between {signature : String}
    {front middle back : List Char}
    (h : signature.toList = front ++ middle ++ back) :
    parameterLabel signature
      (.units (Text.units front) (Text.units (front ++ middle))) =
      String.ofList middle := by
  rw [parameterLabel, h, ← Utf16.lossy_slice, Nat.sub_zero, Nat.sub_zero,
    Utf16.slice_encode, Utf16.lossy_encode]

/-- A parameter is called by its own text, or by the part of the label between
two of its characters that its units lead to. Of units that lead elsewhere
nothing is said. -/
def IsCalled (signature : String) (p : Parameter) (name : String) : Prop :=
  match p.label with
  | .text s => name = s
  | .units start stop =>
    ∀ front middle back, signature.toList = front ++ middle ++ back →
      Text.units front = start → Text.units (front ++ middle) = stop →
      name = String.ofList middle

theorem isCalled_parameterLabel (signature : String) (p : Parameter) :
    IsCalled signature p (parameterLabel signature p.label) := by
  unfold IsCalled
  split
  · next s hlabel =>
      rw [hlabel]
      rfl
  · next start stop hlabel =>
      intro front middle back hsplit hstart hstop
      rw [hlabel, ← hstart, ← hstop, parameterLabel_between hsplit]

/-! # Rows -/

def signatureRow (marked : Bool) (s : Signature) : String :=
  line s!"{markIf marked} {s.label}"

def plainRows (signatures : List Signature) : String :=
  String.join (signatures.map (signatureRow false))

def parameterRow (marked : Bool) (named : Parameter × String) : String :=
  let documentation :=
    (named.1.documentation.map fun d => s!" - {d.value}").getD ""
  line (s!"  {markIf marked} {named.2}" ++ documentation)

def parameterRows (active : Option Nat) (named : List (Parameter × String)) :
    String :=
  if named.isEmpty then ""
  else "\nParameters:\n" ++
    numbered (fun n => parameterRow (active.any (· + 1 = n))) named

def documentationRows (s : Signature) : String :=
  (s.documentation.map fun d => line s!"\nDocumentation:\n{d.value}").getD ""

def namedParameters (s : Signature) : List (Parameter × String) :=
  (s.parameters.getD []).map fun p => (p, parameterLabel s.label p.label)

theorem numbered_map {α β : Type} (render : Nat → β → String) (f : α → β)
    (items : List α) :
    numbered render (items.map f) =
      numbered (fun n a => render n (f a)) items := by
  have hrows : (items.map f).mapIdx (fun i b => render (i + 1) b) =
      items.mapIdx fun i a => render (i + 1) (f a) := by
    rw [List.mapIdx_eq_iff]
    intro i
    rw [List.getElem?_mapIdx, List.getElem?_map, Option.map_map]
    rfl
  rw [numbered, numbered, hrows]

theorem signatureLine_eq (active n : Nat) (s : Signature) :
    signatureLine active n s = signatureRow (n = active + 1) s := rfl

theorem parameterLines_eq (active : Option Nat) (s : Signature) :
    parameterLines active s =
      parameterRows (s.activeParameter.or active) (namedParameters s) := by
  rw [parameterLines]
  split
  · next p rest hparameters =>
      rw [parameterRows, namedParameters, hparameters, Option.getD_some,
        if_neg (by simp), numbered_map]
      rfl
  · next hnone =>
      have hempty : s.parameters.getD [] = [] := by
        cases hparameters : s.parameters with
        | none =>
            rfl
        | some parameters =>
            cases parameters with
            | nil =>
                rfl
            | cons p rest =>
                exact absurd hparameters (hnone p rest)
      rw [parameterRows, namedParameters, hempty, List.map_nil,
        List.isEmpty_nil, if_pos rfl]

theorem mapIdx_signatureLine {active : Nat} {number : Nat → Nat}
    {signatures : List Signature}
    (h : ∀ i < signatures.length, number i ≠ active + 1) :
    signatures.mapIdx (fun i => signatureLine active (number i)) =
      signatures.map (signatureRow false) := by
  rw [List.mapIdx_eq_iff]
  intro i
  rw [List.getElem?_map]
  cases hi : signatures[i]? with
  | none =>
      rfl
  | some s =>
      have hne := h i (List.getElem?_eq_some_iff.mp hi).1
      rw [Option.map_some, Option.map_some, signatureLine_eq,
        decide_eq_false hne]

theorem numbered_signatureLine (before : List Signature) (active : Signature)
    (after : List Signature) :
    numbered (signatureLine before.length) (before ++ active :: after) =
      plainRows before ++ signatureRow true active ++ plainRows after := by
  have hbefore : before.mapIdx (fun i => signatureLine before.length (i + 1)) =
      before.map (signatureRow false) :=
    mapIdx_signatureLine fun i hi => by omega
  have hafter :
      after.mapIdx (fun i =>
        signatureLine before.length (i + 1 + before.length + 1)) =
      after.map (signatureRow false) :=
    mapIdx_signatureLine fun i _ => by omega
  have hactive : signatureLine before.length (0 + before.length + 1) active =
      signatureRow true active := by
    rw [signatureLine_eq, decide_eq_true (by omega)]
  rw [numbered, List.mapIdx_append, List.mapIdx_cons, hbefore, hafter, hactive,
    String.join_append, String.join_cons, ← String.append_assoc]
  rfl

/-! # Reports -/

/-- The index of the signature that is requested: the first one if the server
names none. -/
def requested (h : SignatureHelp) : Nat :=
  h.activeSignature.getD 0

/-- The report, with every step that could leave its bounds checked. -/
def checkedHelp (help : Option SignatureHelp) (lineText : String) :
    Option String :=
  match help with
  | none => some (signatureHelp.noSignatureHelp lineText)
  | some h =>
    if h.signatures.isEmpty then some (signatureHelp.noSignatureHelp lineText)
    else do
      let last ← h.signatures.length.ppred
      let index := min (requested h) last
      let active ← h.signatures[index]?
      let named ← (active.parameters.getD []).mapM fun p =>
        (checkedLabel active.label p.label).map (p, ·)
      some ("Signature Help:\n\n" ++
        numbered (signatureLine index) h.signatures ++
        (parameterRows (active.activeParameter.or h.activeParameter) named ++
          documentationRows active) ++ signatureCount h)

theorem activeIndex_lt {h : SignatureHelp} (hsome : h.signatures ≠ []) :
    activeIndex h < h.signatures.length := by
  have hpos := List.length_pos_iff.mpr hsome
  rw [activeIndex]
  omega

theorem exists_active {h : SignatureHelp} (hsome : h.signatures ≠ []) :
    ∃ before active after, h.signatures = before ++ active :: after ∧
      before.length = activeIndex h ∧
      (before.length = requested h ∨ h.signatures.length ≤ requested h ∧
        after = []) := by
  have hlt := activeIndex_lt hsome
  have hlength : (h.signatures.take (activeIndex h)).length = activeIndex h :=
    List.length_take_of_le (Nat.le_of_lt hlt)
  refine ⟨_, h.signatures[activeIndex h], h.signatures.drop (activeIndex h + 1),
    ?_, hlength, ?_⟩
  · rw [← List.drop_eq_getElem_cons hlt, List.take_append_drop]
  · rw [hlength, List.drop_eq_nil_iff]
    unfold activeIndex requested at *
    omega

theorem signatureHelp_some {h : SignatureHelp} {active : Signature}
    (hactive : h.signatures[activeIndex h]? = some active) (lineText : String) :
    signatureHelp (some h) lineText =
      "Signature Help:\n\n" ++
        numbered (signatureLine (activeIndex h)) h.signatures ++
        (parameterRows (active.activeParameter.or h.activeParameter)
          (namedParameters active) ++ documentationRows active) ++
          signatureCount h := by
  simp only [signatureHelp, hactive]
  rw [signatureDetails, parameterLines_eq]
  rfl

theorem mapM_checkedLabel (s : Signature) :
    ((s.parameters.getD []).mapM fun p =>
      (checkedLabel s.label p.label).map (p, ·)) =
        some (namedParameters s) := by
  have hname :
      (fun p : Parameter => (checkedLabel s.label p.label).map (p, ·)) =
      fun p => pure (p, parameterLabel s.label p.label) := by
    funext p
    rw [checkedLabel_eq]
    rfl
  rw [hname, List.mapM_pure]
  rfl

/-- No step of a report leaves its bounds. -/
theorem checkedHelp_eq (help : Option SignatureHelp) (lineText : String) :
    checkedHelp help lineText = some (signatureHelp help lineText) := by
  cases help with
  | none =>
      rfl
  | some h =>
      rw [checkedHelp]
      split
      · next hempty =>
          have hnone : h.signatures = [] := List.isEmpty_iff.mp hempty
          simp only [signatureHelp, hnone, List.getElem?_nil]
      · next hsome =>
          have hne : h.signatures ≠ [] :=
            fun heq => hsome (List.isEmpty_iff.mpr heq)
          have hlast :
              h.signatures.length.ppred = some (h.signatures.length - 1) :=
            Nat.ppred_eq_pred (List.length_pos_iff.mpr hne)
          have hactive := List.getElem?_eq_getElem (activeIndex_lt hne)
          rw [hlast, Option.bind_eq_bind, Option.bind_some]
          show (h.signatures[activeIndex h]?.bind _) = _
          rw [hactive, Option.bind_some, mapM_checkedLabel, Option.bind_eq_bind,
            Option.bind_some, signatureHelp_some hactive]
          rfl

/-- A report on signatures never fails, whatever the server names as active or
as the parts of a label: worked out with checked operations it comes out the
same. If there are signatures, one is marked, the requested one or the last if
there are not that many. A parameter that goes from one character of the label
to another is called by exactly the characters between them. -/
theorem signatureHelp_exact (help : Option SignatureHelp) (lineText : String) :
    checkedHelp help lineText = some (signatureHelp help lineText) ∧
    ∀ h, help = some h → h.signatures ≠ [] → ∃ before active after named,
      h.signatures = before ++ active :: after ∧
      (before.length = requested h ∨ h.signatures.length ≤ requested h ∧
        after = []) ∧
      named.map Prod.fst = active.parameters.getD [] ∧
      (∀ parameter ∈ named, IsCalled active.label parameter.1 parameter.2) ∧
      signatureHelp help lineText =
        "Signature Help:\n\n" ++
          (plainRows before ++ signatureRow true active ++ plainRows after) ++
          (parameterRows (active.activeParameter.or h.activeParameter) named ++
            documentationRows active) ++ signatureCount h := by
  refine ⟨checkedHelp_eq help lineText, ?_⟩
  intro h hhelp hsome
  rcases exists_active hsome with
    ⟨before, active, after, hsplit, hindex, hrequested⟩
  have hactive : h.signatures[activeIndex h]? = some active := by
    rw [hsplit, ← hindex, List.getElem?_append_right (Nat.le_refl _),
      Nat.sub_self, List.getElem?_cons_zero]
  refine ⟨before, active, after, namedParameters active, hsplit, hrequested,
    ?_, ?_, ?_⟩
  · rw [namedParameters, List.map_map]
    exact List.map_id _
  · intro parameter hparameter
    rcases List.mem_map.mp hparameter with ⟨p, -, rfl⟩
    exact isCalled_parameterLabel active.label p
  · rw [hhelp, signatureHelp_some hactive, ← numbered_signatureLine,
      ← hsplit, hindex]

/-- Signatures of which one is requested that does not exist, with parameters
that go around a character of two units, cut through it, and run backwards past
the end. -/
def crookedHelp : SignatureHelp where
  signatures := [⟨"f(a)", none, none, none⟩,
    ⟨"g(𝒳: b)", none,
      some [⟨.units 2 7, none⟩, ⟨.units 2 3, none⟩, ⟨.units 9 4, none⟩], none⟩]
  activeSignature := some 7
  activeParameter := some 1

/-- Nothing that is wrong with what a server names makes a report fail. -/
theorem signatureHelp_exact_crooked :
    checkedHelp (some crookedHelp) "" =
      some ("Signature Help:\n\n  f(a)\n▶ g(𝒳: b)\n\n" ++
      "Parameters:\n    𝒳: b\n  ▶ \uFFFD\n    \n\n" ++
      "Showing 2 of 2 signatures (▶ marks active signature/parameter)\n") ∧
    crookedHelp.signatures ≠ [] ∧
    ∃ before active, crookedHelp.signatures = before ++ [active] ∧
      crookedHelp.signatures.length ≤ requested crookedHelp := by
  have hsome : crookedHelp.signatures ≠ [] := by decide
  have hexact := signatureHelp_exact (some crookedHelp) ""
  refine ⟨hexact.1.trans (by decide +kernel), hsome, ?_⟩
  rcases hexact.2 crookedHelp rfl hsome with
    ⟨before, active, after, -, hsplit, hrequested, -⟩
  rcases hrequested with hfound | ⟨hpast, rfl⟩
  · have hlength := congrArg List.length hsplit
    rw [List.length_append, hfound] at hlength
    exact absurd hlength (by simp [crookedHelp, requested]; omega)
  · exact ⟨before, active, hsplit, hpast⟩

end Report
end CodeIntel
