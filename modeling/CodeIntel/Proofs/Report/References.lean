import CodeIntel.Lookup.Candidate
import CodeIntel.Proofs.Edit.Grouping
import CodeIntel.Report.References
import CodeIntel.Totals
import Mathlib.Data.List.Nodup
import Mathlib.Data.List.Perm.Basic

/-!
# Conservation of references

A report on references groups locations by document and sorts each group. Both
only move locations around: each of them is in the group of its document, and in
none other. Where no two locations start at one place, the starts of a group
ascend strictly.
-/

namespace CodeIntel

/-! # Order of positions -/

namespace Position

theorem atMost_total (p q : Position) :
    p.atMost q = true ∨ q.atMost p = true := by
  rw [atMost_iff, atMost_iff]
  omega

theorem before_of_atMost {p q : Position} (h : p.atMost q = true)
    (hne : p ≠ q) :
    p.before q = true := by
  rw [atMost_iff] at h
  rw [before_iff]
  by_contra hnot
  exact hne (Position.ext (by omega) (by omega))

/-- Neither coordinate is the last one, which has no number of its own. -/
def IsNumbered (p : Position) : Prop :=
  p.line < 4294967295 ∧ p.character < 4294967295

end Position

/-- Counted from one, numbered positions keep their order. -/
theorem EditorPosition.compare_ofPosition {p q : Position} (hp : p.IsNumbered)
    (hq : q.IsNumbered) (h : p.before q = true) :
    (ofPosition p).compare (ofPosition q) = .lt := by
  rw [compare, ofPosition, ofPosition, Position.ordinal_of_lt hp.1,
    Position.ordinal_of_lt hp.2,
    Position.ordinal_of_lt hq.1, Position.ordinal_of_lt hq.2,
    Ordering.then_eq_lt]
  rcases Position.before_iff.mp h with hline | ⟨hline, hcolumn⟩
  · exact .inl (Nat.compare_eq_lt.mpr (Nat.succ_lt_succ hline))
  · exact .inr ⟨Nat.compare_eq_eq.mpr (congrArg Nat.succ hline),
      Nat.compare_eq_lt.mpr (Nat.succ_lt_succ hcolumn)⟩

/-! # Groups -/

namespace UrlMap

variable {α : Type}

def entries (m : UrlMap (List α)) : List (Url × α) :=
  m.flatMap fun group => group.2.map (group.1, ·)

theorem entries_cons (group : Url × List α) (rest : UrlMap (List α)) :
    entries (group :: rest) = group.2.map (group.1, ·) ++ entries rest :=
  List.flatMap_cons

theorem entries_update (uri : Url) (a : α) (m : UrlMap (List α)) :
    (entries (m.update uri [] (· ++ [a]))).Perm ((uri, a) :: entries m) := by
  induction m with
  | nil =>
      exact List.Perm.refl _
  | cons group rest ih =>
      obtain ⟨u, items⟩ := group
      rw [update]
      split
      · next heq =>
          subst heq
          rw [entries_cons, entries_cons, List.map_append, List.append_assoc]
          exact List.perm_middle
      · split
        · exact List.Perm.refl _
        · rw [entries_cons, entries_cons]
          exact (ih.append_left _).trans List.perm_middle

theorem forall_mem_update {m : UrlMap (List α)} (h : ∀ group ∈ m, group.2 ≠ [])
    (uri : Url) (a : α) :
    ∀ group ∈ m.update uri [] (· ++ [a]), group.2 ≠ [] := by
  have hput : ∀ items : List α, items ++ [a] ≠ [] := fun items =>
    List.append_ne_nil_of_right_ne_nil items (List.cons_ne_nil a [])
  induction m with
  | nil =>
      exact List.forall_mem_singleton.mpr (hput [])
  | cons group rest ih =>
      rcases List.forall_mem_cons.mp h with ⟨hgroup, hrest⟩
      rw [update]
      split
      · exact List.forall_mem_cons.mpr ⟨hput group.2, hrest⟩
      · split
        · exact List.forall_mem_cons.mpr ⟨hput [], h⟩
        · exact List.forall_mem_cons.mpr ⟨hgroup, ih hrest⟩

theorem entries_map {arrange : List α → List α}
    (h : ∀ items, (arrange items).Perm items) (m : UrlMap (List α)) :
    (entries (m.map fun group => (group.1, arrange group.2))).Perm
      (entries m) := by
  rw [entries, List.flatMap_map]
  exact List.Perm.flatMap_left m fun group _ => (h group.2).map _

end UrlMap

/-! # Grouping -/

namespace References

def entry (l : Location) : Url × Range :=
  (l.uri, l.range)

theorem foldl_update (locations : List Location) {files : UrlMap (List Range)}
    (h : files.Ascending) (hgroups : ∀ group ∈ files, group.2 ≠ []) :
    let grouped := locations.foldl
      (fun files l => UrlMap.update l.uri [] (· ++ [l.range]) files) files
    grouped.Ascending ∧ (∀ group ∈ grouped, group.2 ≠ []) ∧
      grouped.entries.Perm (locations.map entry ++ files.entries) := by
  induction locations generalizing files with
  | nil =>
      exact ⟨h, hgroups, List.Perm.refl _⟩
  | cons l rest ih =>
      rcases ih (h.update l.uri [] (· ++ [l.range]))
        (UrlMap.forall_mem_update hgroups l.uri l.range) with
        ⟨hascending, hnonempty, hperm⟩
      refine ⟨hascending, hnonempty, hperm.trans ?_⟩
      exact ((UrlMap.entries_update l.uri l.range files).append_left _).trans
        List.perm_middle

theorem collect_spec (locations : List Location) :
    (collect locations).Ascending ∧
    (∀ group ∈ collect locations, group.2 ≠ []) ∧
    (collect locations).entries.Perm (locations.map entry) := by
  have hfold := foldl_update locations List.Pairwise.nil (List.forall_mem_nil _)
  rwa [show UrlMap.entries [] = ([] : List (Url × Range)) from rfl,
    List.append_nil] at hfold

theorem entries_byFile (locations : List Location) :
    (byFile locations).entries.Perm (locations.map entry) :=
  (UrlMap.entries_map (Sorting.sortBy_perm startsAtMost)
    (collect locations)).trans (collect_spec locations).2.2

theorem ascending_byFile (locations : List Location) :
    (byFile locations).Ascending :=
  List.pairwise_map.mpr (collect_spec locations).1

theorem ne_nil_of_mem_byFile {locations : List Location}
    {file : Url × List Range} (h : file ∈ byFile locations) : file.2 ≠ [] := by
  rcases List.mem_map.mp h with ⟨⟨uri, ranges⟩, hgroup, rfl⟩
  intro (hnil : Sorting.sortBy startsAtMost ranges = [])
  have hperm := Sorting.sortBy_perm startsAtMost ranges
  rw [hnil] at hperm
  exact (collect_spec locations).2.1 _ hgroup hperm.nil_eq.symm

theorem sorted_of_mem_byFile {locations : List Location}
    {file : Url × List Range} (h : file ∈ byFile locations) :
    file.2.Pairwise fun a b => startsAtMost a b = true := by
  rcases List.mem_map.mp h with ⟨group, -, rfl⟩
  apply Sorting.pairwise_sortBy
  · exact fun a b => Position.atMost_total a.start b.start
  · exact fun a b c => Position.atMost_trans

def place (e : Url × Range) : Url × Position :=
  (e.1, e.2.start)

theorem places_byFile (locations : List Location) :
    ((byFile locations).entries.map place).Perm
      (locations.map Lookup.startKey) := by
  have hperm := (entries_byFile locations).map place
  rwa [List.map_map] at hperm

theorem before_of_mem_byFile {locations : List Location}
    (hdistinct : (locations.map Lookup.startKey).Nodup)
    {file : Url × List Range} (h : file ∈ byFile locations) :
    (file.2.map Range.start).Pairwise fun p q => p.before q = true := by
  -- no place comes twice in all groups together, hence none in one of them
  have hplaces := (places_byFile locations).nodup_iff.mpr hdistinct
  rw [UrlMap.entries, List.map_flatMap, List.nodup_flatMap] at hplaces
  have hstarts : ((file.2.map Range.start).map (file.1, ·)).Nodup := by
    have hfile := hplaces.1 file h
    rwa [List.map_map] at hfile ⊢
  -- sorting leaves equal starts side by side, so that the order is strict only
  -- without them
  have hsorted :
      (file.2.map Range.start).Pairwise fun p q => p.atMost q = true :=
    List.pairwise_map.mpr (sorted_of_mem_byFile h)
  exact (hsorted.and (hstarts.of_map _)).imp fun ⟨hle, hne⟩ =>
    Position.before_of_atMost hle hne

end References

/-! # Reports -/

/-- What a report says about one document. -/
structure FileSection where
  uri : Url
  count : Nat
  starts : List Position
  excerpts : String

namespace FileSection

/-- The lines around each of several places. A text that could not be read has
none. -/
def excerptsAt (content : Option String) (starts : List Position)
    (context : Nat) : String :=
  match content with
  | none => ""
  | some content =>
    String.join (starts.map fun p =>
      Report.line (Excerpt.around content (Position.ordinal p.line)
        context true))

def printed (s : FileSection) : List EditorPosition :=
  s.starts.map EditorPosition.ofPosition

def text (s : FileSection) : String :=
  let places := ", ".intercalate (s.printed.map EditorPosition.text)
  "---\n\n" ++ Report.line s.uri.toPath.text ++
    Report.line s!"References in File: {s.count}" ++
    Report.line s!"At: {places}\n" ++ s.excerpts

def places (s : FileSection) : List (Url × Position) :=
  s.starts.map (s.uri, ·)

def ofRanges (content : Option String) (context : Nat)
    (file : Url × List Range) : FileSection where
  uri := file.1
  count := file.2.length
  starts := file.2.map Range.start
  excerpts := excerptsAt content (file.2.map Range.start) context

theorem text_ofRanges (content : Option String) (context : Nat)
    (file : Url × List Range) :
    (ofRanges content context file).text =
      Report.fileReferences file.1.toPath content file.2 context := by
  unfold text printed ofRanges Report.fileReferences Report.startsText
    excerptsAt
  simp only [List.map_map]
  cases content <;> rfl

end FileSection

/-- The number in the headline of a report, and its sections. -/
structure ReferenceReport where
  total : Nat
  sections : List FileSection

namespace ReferenceReport

def text (symbol : String) (r : ReferenceReport) : String :=
  if r.total = 0 then s!"No references found for symbol: {symbol}"
  else
    s!"Found {r.total} reference(s) to {symbol}:\n\n" ++
      String.join (r.sections.map FileSection.text)

def places (r : ReferenceReport) : List (Url × Position) :=
  r.sections.flatMap FileSection.places

/-- The sections list each of the places that were told once, and no other, by
document and by start. All numbers are those of the places. The printed places
ascend as the places do, as far as they are numbered. -/
structure Conserves (r : ReferenceReport) (told : List (Url × Position)) :
    Prop where
  listed : ∀ place, place ∈ r.places ↔ place ∈ told
  once : r.places.Nodup
  counts : ∀ s ∈ r.sections, s.count = s.starts.length
  total_counts : r.total = sumOf FileSection.count r.sections
  total_places : r.total = sumOf (fun s => s.starts.length) r.sections
  nonempty : ∀ s ∈ r.sections, s.starts ≠ []
  documents : r.sections.Pairwise fun s t => s.uri.text < t.uri.text
  starts : ∀ s ∈ r.sections, s.starts.Pairwise fun p q => p.before q = true
  printed : ∀ s ∈ r.sections, s.starts.Pairwise fun p q => p.IsNumbered →
    q.IsNumbered → (EditorPosition.ofPosition p).compare
      (EditorPosition.ofPosition q) = .lt

def ofLocations (content : Url → Option String) (context : Nat)
    (locations : List Location) :
    ReferenceReport where
  total := locations.length
  sections := (References.byFile locations).map fun file =>
    FileSection.ofRanges (content file.1) context file

theorem length_places (r : ReferenceReport) :
    r.places.length = sumOf (fun s => s.starts.length) r.sections := by
  cases r with
  | mk total sections =>
      induction sections with
      | nil =>
          rfl
      | cons s rest ih =>
          rw [places, List.flatMap_cons, List.length_append, FileSection.places,
            List.length_map, sumOf_cons, ← ih, places]

theorem Conserves.congr {r : ReferenceReport}
    {told others : List (Url × Position)} (h : r.Conserves told)
    (hsame : ∀ place, place ∈ told ↔ place ∈ others) : r.Conserves others :=
  { h with listed := fun place => (h.listed place).trans (hsame place) }

section OfLocations

variable {content : Url → Option String} {context : Nat}
  {locations : List Location}

theorem places_ofLocations : (ofLocations content context locations).places.Perm
    (locations.map Lookup.startKey) := by
  have heq : (ofLocations content context locations).places =
      (References.byFile locations).entries.map References.place := by
    simp only [places, ofLocations, UrlMap.entries, List.flatMap_map,
      List.map_flatMap, FileSection.places, FileSection.ofRanges, List.map_map]
    rfl
  rw [heq]
  exact References.places_byFile locations

theorem counts_ofLocations :
    ∀ s ∈ (ofLocations content context locations).sections,
    s.count = s.starts.length := by
  intro s hs
  rcases List.mem_map.mp hs with ⟨file, -, rfl⟩
  exact (List.length_map _).symm

/-- The report on locations of which no two start at one place conserves their
places. -/
theorem conserves_ofLocations
    (hdistinct : (locations.map Lookup.startKey).Nodup) :
    (ofLocations content context locations).Conserves
      (locations.map Lookup.startKey) := by
  have htotal : locations.length = sumOf (fun s => s.starts.length)
      (ofLocations content context locations).sections := by
    rw [← length_places, places_ofLocations.length_eq, List.length_map]
  exact {
    listed := fun _ => places_ofLocations.mem_iff
    once := places_ofLocations.nodup_iff.mpr hdistinct
    counts := counts_ofLocations
    total_counts := htotal.trans (sumOf_congr counts_ofLocations).symm
    total_places := htotal
    nonempty := List.forall_mem_map.mpr fun file hfile hnil =>
      References.ne_nil_of_mem_byFile hfile (List.map_eq_nil_iff.mp hnil)
    documents := List.pairwise_map.mpr (References.ascending_byFile locations)
    starts :=
    List.forall_mem_map.mpr fun _ => References.before_of_mem_byFile hdistinct
    printed := List.forall_mem_map.mpr fun _ hfile =>
      (References.before_of_mem_byFile hdistinct hfile).imp fun hbefore hp hq =>
        EditorPosition.compare_ofPosition hp hq hbefore }

end OfLocations

end ReferenceReport
end CodeIntel
