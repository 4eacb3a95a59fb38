import CodeIntel.Edit.Workspace
import Mathlib.Data.String.Basic

/-!
# Edits grouped by document

An edit of a workspace addresses lists of text edits to documents, the same
document possibly more than once. Unless a file operation is among them they are
grouped: each URL that is addressed stands there once, in the order of the
texts, with all that is addressed to it in the order in which the server gave
it.
-/

namespace CodeIntel

/-! # Tables by URL -/

namespace UrlMap

variable {α : Type}

/-- Distinct keys in the order of their texts. -/
def Ascending (m : UrlMap α) : Prop :=
  m.Pairwise fun a b => a.1.text < b.1.text

theorem find?_eq_none_of_below {uri : Url} {m : UrlMap α}
    (h : ∀ e ∈ m, uri.text < e.1.text) :
    find? uri m = none := by
  induction m with
  | nil =>
      rfl
  | cons e rest ih =>
      have hne : uri ≠ e.1 := by
        intro heq
        exact lt_irrefl _ (heq ▸ h e List.mem_cons_self)
      rw [find?, if_neg hne]
      exact ih fun e' he' => h e' (List.mem_cons_of_mem _ he')

theorem find?_update {m : UrlMap α} (h : m.Ascending) (uri key : Url)
    (initial : α) (change : α → α) : (m.update uri initial change).find? key =
      if key = uri then some (change ((m.find? uri).getD initial))
      else m.find? key := by
  induction m with
  | nil =>
      rfl
  | cons e rest ih =>
      obtain ⟨u, a⟩ := e
      obtain ⟨hbelow, hrest⟩ := List.pairwise_cons.mp h
      rw [update]
      split
      · next heq =>
          subst heq
          simp only [find?, if_true, Option.getD_some]
          split <;> rfl
      · next hne =>
          split
          · next hlt =>
              have hnone : find? uri ((u, a) :: rest) = none := by
                apply find?_eq_none_of_below
                intro e he
                rcases List.mem_cons.mp he with rfl | he
                · exact hlt
                · exact lt_trans hlt (hbelow e he)
              rw [hnone]
              rfl
          · simp only [find?, if_neg hne, ih hrest]
            by_cases hkey : key = u
            · subst hkey
              rw [if_pos rfl, if_pos rfl, if_neg (Ne.symm hne)]
            · rw [if_neg hkey, if_neg hkey]

theorem find?_insert (uri key : Url) (a : α) (m : UrlMap α) :
    find? key (insert uri a m) = if key = uri then some a else find? key m := by
  unfold insert
  induction m with
  | nil =>
      rfl
  | cons e rest ih =>
      obtain ⟨u, b⟩ := e
      rw [update]
      split
      · next heq =>
          subst heq
          simp only [find?]
          split <;> rfl
      · next hne =>
          split
          · rfl
          · simp only [find?, ih]
            by_cases hkey : key = u
            · subst hkey
              rw [if_pos rfl, if_pos rfl, if_neg (Ne.symm hne)]
            · rw [if_neg hkey, if_neg hkey]

theorem mem_update {m : UrlMap α} {uri : Url} {initial : α} {change : α → α}
    {e : Url × α} (he : e ∈ m.update uri initial change) :
    e.1 = uri ∨ e ∈ m := by
  induction m with
  | nil =>
      exact .inl (congrArg Prod.fst (List.mem_singleton.mp he))
  | cons first rest ih =>
      rw [update] at he
      split at he
      · next heq =>
          rcases List.mem_cons.mp he with rfl | he
          · exact .inl heq.symm
          · exact .inr (List.mem_cons_of_mem _ he)
      · split at he
        · rcases List.mem_cons.mp he with rfl | he
          · exact .inl rfl
          · exact .inr he
        · rcases List.mem_cons.mp he with rfl | he
          · exact .inr List.mem_cons_self
          · exact (ih he).imp id (List.mem_cons_of_mem _)

theorem Ascending.update {m : UrlMap α} (h : m.Ascending) (uri : Url)
    (initial : α) (change : α → α) :
    (m.update uri initial change).Ascending := by
  induction m with
  | nil =>
      exact List.pairwise_singleton _ _
  | cons e rest ih =>
      obtain ⟨u, a⟩ := e
      obtain ⟨hbelow, hrest⟩ := List.pairwise_cons.mp h
      rw [UrlMap.update]
      split
      · exact List.pairwise_cons.mpr ⟨hbelow, hrest⟩
      · next hne =>
          split
          · next hlt =>
              refine List.pairwise_cons.mpr ⟨?_, h⟩
              intro e he
              rcases List.mem_cons.mp he with rfl | he
              · exact hlt
              · exact lt_trans hlt (hbelow e he)
          · next hnot =>
              refine List.pairwise_cons.mpr ⟨?_, ih hrest⟩
              intro e he
              rcases mem_update he with heq | he
              · rw [heq]
                apply lt_of_le_of_ne (not_lt.mp hnot)
                intro htext
                exact hne (congrArg Url.mk htext).symm
              · exact hbelow e he

theorem mem_iff_find? {m : UrlMap α} (h : m.Ascending) (uri : Url) (a : α) :
    (uri, a) ∈ m ↔ m.find? uri = some a := by
  induction m with
  | nil =>
      simp [find?]
  | cons e rest ih =>
      obtain ⟨u, b⟩ := e
      obtain ⟨hbelow, hrest⟩ := List.pairwise_cons.mp h
      rw [List.mem_cons, ih hrest, find?]
      by_cases heq : uri = u
      · subst heq
        have hnone : find? uri rest = none := find?_eq_none_of_below hbelow
        simp [hnone, eq_comm]
      · simp [heq]

theorem Ascending.nodup {m : UrlMap α} (h : m.Ascending) : m.Nodup := by
  refine List.Pairwise.imp ?_ h
  rintro a b hab rfl
  exact lt_irrefl _ hab

theorem Ascending.ext {m m' : UrlMap α} (h : m.Ascending) (h' : m'.Ascending)
    (hmem : ∀ e, e ∈ m ↔ e ∈ m') : m = m' := by
  have hperm : m.Perm m' :=
    (List.perm_ext_iff_of_nodup h.nodup h'.nodup).mpr hmem
  apply hperm.eq_of_pairwise _ h h'
  intro a b _ _ hab hba
  exact absurd (lt_trans hab hba) (lt_irrefl _)

end UrlMap

/-! # Grouping -/

namespace WorkspaceEdit

def editsTo (uri : Url) (addressed : List (Url × List TextEdit)) :
    List TextEdit :=
  (addressed.filter fun e => e.1 = uri).flatMap Prod.snd

def grouped (addressed : List (Url × List TextEdit)) : UrlMap (List TextEdit) :=
  addressed.foldl (fun files e => addEdits files e.1 e.2) []

theorem editsTo_cons (uri : Url) (e : Url × List TextEdit)
    (rest : List (Url × List TextEdit)) :
    editsTo uri (e :: rest) = (if e.1 = uri then e.2 else []) ++
      editsTo uri rest := by
  by_cases h : e.1 = uri <;> simp [editsTo, h]

theorem editsTo_eq_nil {uri : Url} {addressed : List (Url × List TextEdit)}
    (h : uri ∉ addressed.map Prod.fst) : editsTo uri addressed = [] := by
  have hnone : addressed.filter (fun e => e.1 = uri) = [] := by
    rw [List.filter_eq_nil_iff]
    intro e he hsame
    exact h (of_decide_eq_true hsame ▸ List.mem_map_of_mem he)
  rw [editsTo, hnone, List.flatMap_nil]

theorem foldl_addEdits (addressed : List (Url × List TextEdit))
    {m : UrlMap (List TextEdit)} (h : m.Ascending) :
    (addressed.foldl (fun files e => addEdits files e.1 e.2) m).Ascending ∧
    ∀ uri,
      (addressed.foldl (fun files e => addEdits files e.1 e.2) m).find? uri =
        if uri ∈ addressed.map Prod.fst then
          some ((m.find? uri).getD [] ++ editsTo uri addressed)
        else m.find? uri := by
  induction addressed generalizing m with
  | nil =>
      exact ⟨h, fun uri => by simp⟩
  | cons e rest ih =>
      obtain ⟨hascending, hfind⟩ := ih (h.update e.1 [] (· ++ e.2))
      refine ⟨hascending, fun uri => ?_⟩
      rw [List.foldl_cons]
      refine (hfind uri).trans ?_
      rw [UrlMap.find?_update h]
      by_cases huri : uri = e.1
      · subst huri
        by_cases hmem : e.1 ∈ rest.map Prod.fst
        · simp [hmem, editsTo_cons]
        · simp [hmem, editsTo_cons, editsTo_eq_nil hmem]
      · have hmem :
            uri ∈ (e :: rest).map Prod.fst ↔ uri ∈ rest.map Prod.fst := by
          rw [List.map_cons, List.mem_cons, or_iff_right huri]
        rw [if_neg huri, editsTo_cons, if_neg (Ne.symm huri), List.nil_append]
        simp only [hmem]

theorem grouped_ascending (addressed : List (Url × List TextEdit)) :
    (grouped addressed).Ascending :=
  (foldl_addEdits addressed List.Pairwise.nil).1

theorem mem_grouped_iff {addressed : List (Url × List TextEdit)} {uri : Url}
    {edits : List TextEdit} : (uri, edits) ∈ grouped addressed ↔
      uri ∈ addressed.map Prod.fst ∧ edits = editsTo uri addressed := by
  rw [UrlMap.mem_iff_find? (grouped_ascending addressed)]
  refine (iff_of_eq (congrArg (· = some edits)
    ((foldl_addEdits addressed List.Pairwise.nil).2 uri))).trans ?_
  split
  · next hmem =>
      simp [hmem, UrlMap.find?, eq_comm]
  · next hmem =>
      simp [hmem, UrlMap.find?]

/-! # What an edit addresses -/

/-- Whether files are to be created, renamed or deleted. Document changes count
before plain ones. -/
def HasOperation (w : WorkspaceEdit) : Prop :=
  ∃ changes op, w.documentChanges = some changes ∧
    DocumentChange.operation op ∈ changes

def addressedBy : DocumentChange → Option (Url × List TextEdit)
  | .edit e => some (e.uri, e.edits.map DocumentEditEntry.edit)
  | .operation _ => none

/-- The text edits and whom they are addressed to, as the server gave them. -/
def addressed (w : WorkspaceEdit) : List (Url × List TextEdit) :=
  match w.documentChanges with
  | none => w.changes.getD []
  | some changes => changes.filterMap addressedBy

theorem mem_map_addressedBy {changes : List DocumentChange} {uri : Url} :
    uri ∈ (changes.filterMap addressedBy).map Prod.fst ↔
    ∃ d, .edit d ∈ changes ∧ d.uri = uri := by
  constructor
  · intro h
    rcases List.mem_map.mp h with ⟨file, hfile, rfl⟩
    rcases List.mem_filterMap.mp hfile with ⟨change, hchange, heq⟩
    cases change with
    | edit d =>
        cases heq
        exact ⟨d, hchange, rfl⟩
    | operation op =>
        exact nomatch heq
  · rintro ⟨d, hd, rfl⟩
    exact List.mem_map.mpr ⟨_, List.mem_filterMap.mpr ⟨_, hd, rfl⟩, rfl⟩

theorem documentEdits_cases (changes : List DocumentChange) :
    (∃ edits, documentEdits changes = .ok edits ∧
      (∀ op, .operation op ∉ changes) ∧
      edits.map (fun d => (d.uri, d.edits.map DocumentEditEntry.edit)) =
        changes.filterMap addressedBy) ∨
    (∃ op, documentEdits changes = .error (unsupported op) ∧
      .operation op ∈ changes) := by
  induction changes with
  | nil =>
      exact .inl ⟨[], rfl, fun op => List.not_mem_nil, rfl⟩
  | cons change rest ih =>
      cases change with
      | operation op =>
          exact .inr ⟨op, rfl, List.mem_cons_self⟩
      | edit e =>
          rcases ih with ⟨edits, heq, hnone, hmap⟩ | ⟨op, heq, hmem⟩
          · refine .inl ⟨e :: edits, by rw [documentEdits, heq]; rfl, ?_, ?_⟩
            · intro op hop
              rcases List.mem_cons.mp hop with hop | hop
              · exact nomatch hop
              · exact hnone op hop
            · rw [List.map_cons, hmap]
              rfl
          · exact .inr ⟨op, by rw [documentEdits, heq]; rfl,
              List.mem_cons_of_mem _ hmem⟩

theorem files_of_plain {w : WorkspaceEdit} (h : w.documentChanges = none) :
    w.files = .ok (grouped (w.changes.getD [])) := by
  simp only [files, h, grouped]

theorem files_of_changes {w : WorkspaceEdit} {changes : List DocumentChange}
    (h : w.documentChanges = some changes) :
    ((∀ op, .operation op ∉ changes) ∧
      w.files = .ok (grouped (changes.filterMap addressedBy))) ∨
    (∃ op, .operation op ∈ changes ∧ w.files = .error (unsupported op)) := by
  rcases documentEdits_cases changes with ⟨edits, heq, hnone, hmap⟩ |
    ⟨op, heq, hmem⟩
  · left
    refine ⟨hnone, ?_⟩
    simp only [files, h, heq, grouped, ← hmap, List.foldl_map]
  · right
    refine ⟨op, hmem, ?_⟩
    simp only [files, h, heq]

theorem files_cases (w : WorkspaceEdit) :
    (¬ w.HasOperation ∧ w.files = .ok (grouped w.addressed)) ∨
    (w.HasOperation ∧ ∃ f, w.files = .error f) := by
  cases h : w.documentChanges with
  | none =>
      left
      constructor
      · rintro ⟨changes, op, hsome, -⟩
        rw [h] at hsome
        exact nomatch hsome
      · rw [files_of_plain h, addressed, h]
  | some changes =>
      rcases files_of_changes h with ⟨hnone, hfiles⟩ | ⟨op, hmem, hfiles⟩
      · left
        constructor
        · rintro ⟨changes', op, hsome, hop⟩
          rw [h] at hsome
          cases hsome
          exact hnone op hop
        · rw [hfiles, addressed, h]
      · exact .inr ⟨⟨changes, op, h, hmem⟩, unsupported op, hfiles⟩

/-! # Plain changes -/

theorem editsTo_of_mem {addressed : List (Url × List TextEdit)}
    (hdistinct : (addressed.map Prod.fst).Nodup) {file : Url × List TextEdit}
    (h : file ∈ addressed) : editsTo file.1 addressed = file.2 := by
  induction addressed with
  | nil =>
      exact absurd h List.not_mem_nil
  | cons first rest ih =>
      rw [List.map_cons, List.nodup_cons] at hdistinct
      cases List.mem_cons.mp h with
      | inl heq =>
          rw [heq, editsTo_cons, if_pos rfl, editsTo_eq_nil hdistinct.1,
            List.append_nil]
      | inr hmem =>
          have hne : first.1 ≠ file.1 := fun hsame =>
            hdistinct.1 (hsame ▸ List.mem_map_of_mem hmem)
          rw [editsTo_cons, if_neg hne, List.nil_append, ih hdistinct.2 hmem]

/-- Where no URL comes twice, grouping only puts the files in order. -/
theorem mem_grouped_of_distinct {addressed : List (Url × List TextEdit)}
    (hdistinct : (addressed.map Prod.fst).Nodup) (file : Url × List TextEdit) :
    file ∈ grouped addressed ↔ file ∈ addressed := by
  refine mem_grouped_iff.trans ?_
  constructor
  · rintro ⟨huri, hedits⟩
    rcases List.mem_map.mp huri with ⟨first, hfirst, hsame⟩
    have hsecond := editsTo_of_mem hdistinct hfirst
    rw [hsame, ← hedits] at hsecond
    rwa [← Prod.ext hsame hsecond.symm]
  · intro hmem
    exact ⟨List.mem_map_of_mem hmem, (editsTo_of_mem hdistinct hmem).symm⟩

theorem grouped_of_perm {addressed addressed' : List (Url × List TextEdit)}
    (hdistinct : (addressed.map Prod.fst).Nodup)
    (hperm : addressed'.Perm addressed) :
    grouped addressed' = grouped addressed := by
  have hdistinct' : (addressed'.map Prod.fst).Nodup :=
    (hperm.map Prod.fst).nodup_iff.mpr hdistinct
  apply UrlMap.Ascending.ext (grouped_ascending _) (grouped_ascending _)
  intro file
  rw [mem_grouped_of_distinct hdistinct', mem_grouped_of_distinct hdistinct,
    hperm.mem_iff]

theorem mem_setChange {uri : Url} {edits : List TextEdit}
    {changes : List (Url × List TextEdit)} {key : Url}
    (h : key ∈ (setChange uri edits changes).map Prod.fst) :
    key = uri ∨ key ∈ changes.map Prod.fst := by
  induction changes with
  | nil =>
      exact .inl (List.mem_singleton.mp h)
  | cons first rest ih =>
      rw [setChange] at h
      split at h
      · next heq =>
          rw [List.map_cons, heq]
          exact .inr h
      · rcases List.mem_cons.mp h with rfl | h
        · exact .inr List.mem_cons_self
        · exact (ih h).imp id (List.mem_cons_of_mem _)

theorem distinct_setChange (uri : Url) (edits : List TextEdit)
    {changes : List (Url × List TextEdit)} (h : (changes.map Prod.fst).Nodup) :
    ((setChange uri edits changes).map Prod.fst).Nodup := by
  induction changes with
  | nil =>
      exact List.pairwise_singleton _ _
  | cons first rest ih =>
      rw [List.map_cons, List.nodup_cons] at h
      rw [setChange]
      split
      · next heq =>
          rw [List.map_cons, List.nodup_cons, ← heq]
          exact h
      · next hne =>
          rw [List.map_cons, List.nodup_cons]
          refine ⟨fun hmem => ?_, ih h.2⟩
          exact (mem_setChange hmem).elim hne h.1

theorem distinct_foldl_setChange (entries : List (Url × List TextEdit))
    {changes : List (Url × List TextEdit)} (h : (changes.map Prod.fst).Nodup) :
    ((entries.foldl (fun acc (u, es) => setChange u es acc) changes).map
      Prod.fst).Nodup := by
  induction entries generalizing changes with
  | nil =>
      exact h
  | cons first rest ih =>
      exact ih (distinct_setChange first.1 first.2 h)

theorem distinct_of_decodeChanges? {v : Json}
    {changes : List (Url × List TextEdit)}
    (h : decodeChanges? v = some changes) : (changes.map Prod.fst).Nodup := by
  cases v with
  | obj members =>
      rcases Option.bind_eq_some_iff.mp h with ⟨entries, -, heq⟩
      cases heq
      exact distinct_foldl_setChange entries List.Pairwise.nil
  | _ =>
      exact nomatch h

/-- The plain changes that come from a server name no URL twice. -/
theorem distinct_of_decode? {v : Json} {w : WorkspaceEdit}
    (h : decode? v = some w) :
    ((w.changes.getD []).map Prod.fst).Nodup := by
  simp only [decode?, bind, Option.bind_eq_some_iff] at h
  rcases h with ⟨record, -, changes, hchanges, documentChanges, -,
    annotations, -, heq⟩
  cases heq
  rw [Json.optional?, Json.orNull?.eq_def] at hchanges
  split at hchanges
  · cases hchanges
    exact List.Pairwise.nil
  · rcases Option.map_eq_some_iff.mp hchanges with ⟨plain, hplain, rfl⟩
    exact distinct_of_decodeChanges? hplain

/-- Text edits are neither lost nor invented nor reordered. An edit with
document changes is refused iff a file operation is among them, else each URL
stands for all that the changes address to it, in their order. An edit without
document changes stands for its plain changes, in whichever order they are
listed; no URL comes twice among them, as in all that are decoded. -/
theorem files_gathers_edits (w : WorkspaceEdit) :
    (∀ changes, w.documentChanges = some changes →
      ((∃ message, w.files = .error (.edit message)) ↔
        ∃ op, .operation op ∈ changes) ∧
      ((∀ op, .operation op ∉ changes) →
        ∃ files : UrlMap (List TextEdit), w.files = .ok files ∧
        files.Ascending ∧
          ∀ uri edits, (uri, edits) ∈ files ↔
            (∃ d, .edit d ∈ changes ∧ d.uri = uri) ∧
              edits = editsTo uri (changes.filterMap addressedBy))) ∧
    (w.documentChanges = none → ((w.changes.getD []).map Prod.fst).Nodup →
      ∃ files : UrlMap (List TextEdit), w.files = .ok files ∧ files.Ascending ∧
        (∀ file, file ∈ files ↔ file ∈ w.changes.getD []) ∧
        ∀ changes, changes.Perm (w.changes.getD []) →
          { w with changes := some changes }.files = .ok files) := by
  constructor
  · intro changes h
    rcases files_of_changes h with ⟨hnone, hfiles⟩ | ⟨op, hmem, hfiles⟩
    · constructor
      · refine iff_of_false ?_ (fun ⟨op, hop⟩ => hnone op hop)
        rintro ⟨message, herror⟩
        rw [hfiles] at herror
        exact nomatch herror
      · intro _
        refine ⟨_, hfiles, grouped_ascending _, fun uri edits => ?_⟩
        rw [mem_grouped_iff, mem_map_addressedBy]
    · constructor
      · exact iff_of_true ⟨_, hfiles⟩ ⟨op, hmem⟩
      · intro hnone
        exact absurd hmem (hnone op)
  · intro h hdistinct
    refine ⟨_, files_of_plain h, grouped_ascending _,
      mem_grouped_of_distinct hdistinct, ?_⟩
    intro changes hperm
    rw [← grouped_of_perm hdistinct hperm]
    exact files_of_plain h

def putInFront (text : String) : TextEdit :=
  ⟨⟨⟨0, 0⟩, ⟨0, 0⟩⟩, text⟩

def threeChanges : List DocumentChange :=
  [.edit ⟨⟨"file:///b"⟩, none, [.plain (putInFront "1")]⟩,
    .edit ⟨⟨"file:///a"⟩, none, [.annotated (putInFront "2") "note"]⟩,
    .edit ⟨⟨"file:///b"⟩, some 1,
      [.annotated (putInFront "3") "note", .plain (putInFront "4")]⟩]

def twoPlain : List (Url × List TextEdit) :=
  [(⟨"file:///b"⟩, [putInFront "5"]),
    (⟨"file:///a"⟩, [putInFront "6", putInFront "7"])]

theorem files_gathers_threeChanges :
    (∃ files : UrlMap (List TextEdit),
      (WorkspaceEdit.mk (some twoPlain) (some threeChanges) none).files =
        .ok files ∧ (⟨"file:///b"⟩,
          [putInFront "1", putInFront "3", putInFront "4"]) ∈ files) ∧
    (twoPlain.map Prod.fst).Nodup ∧
    ∃ files : UrlMap (List TextEdit),
      (WorkspaceEdit.mk (some twoPlain) none none).files = .ok files ∧
        (⟨"file:///a"⟩, [putInFront "6", putInFront "7"]) ∈ files ∧
        (WorkspaceEdit.mk (some twoPlain.reverse) none none).files =
          .ok files := by
  have hplain : (twoPlain.map Prod.fst).Nodup := by decide
  refine ⟨?_, hplain, ?_⟩
  · rcases ((files_gathers_edits ⟨some twoPlain, some threeChanges, none⟩).1
      threeChanges rfl).2 (by simp [threeChanges]) with ⟨files, hfiles, -, hmem⟩
    refine ⟨files, hfiles, (hmem _ _).mpr ⟨⟨_, List.mem_cons_self, rfl⟩, ?_⟩⟩
    decide
  · rcases (files_gathers_edits ⟨some twoPlain, none, none⟩).2 rfl hplain with
      ⟨files, hfiles, -, hmem, hperm⟩
    exact ⟨files, hfiles, (hmem _).mpr (by simp [twoPlain]),
      hperm _ (List.reverse_perm _)⟩

end WorkspaceEdit
end CodeIntel
