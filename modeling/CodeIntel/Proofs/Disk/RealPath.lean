import CodeIntel.Disk.Tree

/-!
# Real paths

The real path of a file is built from names that name entries, and the names of
such a path are found again. So a real path stands for one place, whatever disk
it comes from.
-/

namespace CodeIntel

namespace FilePath

/-- A path that leads straight from the root to its place. -/
def IsReal (p : FilePath) : Prop :=
  ∃ place, (∀ name ∈ place, IsPlain name) ∧ p = ofComponents place

/-! # The names of a path -/

theorem piecesFrom_of_not_mem {name : List UInt8} (h : slash ∉ name)
    (current : List UInt8) :
    piecesFrom current name = [current.reverse ++ name] := by
  induction name generalizing current with
  | nil =>
      simp [piecesFrom]
  | cons b rest ih =>
      obtain ⟨hb, hrest⟩ : slash ≠ b ∧ slash ∉ rest := by simpa using h
      rw [piecesFrom, if_neg (Ne.symm hb), ih hrest]
      simp

theorem piecesFrom_append_slash {name : List UInt8} (h : slash ∉ name)
    (current rest : List UInt8) :
    piecesFrom current (name ++ slash :: rest) =
      (current.reverse ++ name) :: piecesFrom [] rest := by
  induction name generalizing current with
  | nil =>
      simp [piecesFrom]
  | cons b tail ih =>
      obtain ⟨hb, htail⟩ : slash ≠ b ∧ slash ∉ tail := by simpa using h
      rw [List.cons_append, piecesFrom, if_neg (Ne.symm hb), ih htail]
      simp

theorem slash_not_mem_of_mem_piecesFrom {current bytes piece : List UInt8}
    (hcurrent : slash ∉ current) (h : piece ∈ piecesFrom current bytes) :
    slash ∉ piece := by
  induction bytes generalizing current with
  | nil =>
      rw [piecesFrom, List.mem_singleton] at h
      rw [h]
      simpa using hcurrent
  | cons b rest ih =>
      rw [piecesFrom] at h
      split at h
      · rcases List.mem_cons.mp h with rfl | hrest
        · simpa using hcurrent
        · exact ih List.not_mem_nil hrest
      · next hb =>
          exact ih (List.not_mem_cons_of_ne_of_not_mem (Ne.symm hb) hcurrent) h

theorem piecesFrom_flatMap {place : List (List UInt8)}
    (h : ∀ name ∈ place, slash ∉ name) (current name : List UInt8)
    (hname : slash ∉ name) :
    piecesFrom current (name ++ place.flatMap (slash :: ·)) =
      (current.reverse ++ name) :: place := by
  induction place generalizing current name with
  | nil =>
      simpa using piecesFrom_of_not_mem hname current
  | cons next rest ih =>
      have hnext : slash ∉ next := h next List.mem_cons_self
      have hrest : ∀ other ∈ rest, slash ∉ other := fun other ho =>
        h other (List.mem_cons_of_mem _ ho)
      rw [List.flatMap_cons, List.cons_append, piecesFrom_append_slash hname,
        ih hrest [] next hnext]
      simp

theorem names_ofComponents {place : List (List UInt8)}
    (h : ∀ name ∈ place, IsPlain name) :
    (ofComponents place).names = place := by
  cases place with
  | nil =>
      decide
  | cons name rest =>
      have hsplit := piecesFrom_flatMap (fun other ho => (h other ho).2.1) [] []
        List.not_mem_nil
      rw [List.nil_append] at hsplit
      simp only [names, ofComponents, hsplit, List.reverse_nil, List.nil_append]
      rw [List.filter_cons_of_neg (by simp)]
      exact List.filter_eq_self.mpr fun other ho => by
        simpa using (h other ho).1

theorem components_ofComponents {place : List (List UInt8)}
    (h : ∀ name ∈ place, IsPlain name) :
    (ofComponents place).components = place := by
  rw [components, names_ofComponents h]
  exact List.filter_eq_self.mpr fun other ho => by
    simpa using (h other ho).2.2.1

theorem isAbsolute_ofComponents (place : List (List UInt8)) :
    (ofComponents place).isAbsolute = true := by
  cases place with
  | nil =>
      rfl
  | cons name rest =>
      simp [ofComponents, isAbsolute]

end FilePath

namespace Disk

open FilePath

/-! # Walking to a place -/

/-- What a step of a path may be: a name that is not empty and holds no
slash. -/
def IsStep (name : FileName) : Prop :=
  name ≠ [] ∧ slash ∉ name

theorem isStep_of_mem_steps {p : FilePath} {name : FileName}
    (h : name ∈ steps p) :
    IsStep name := by
  rcases List.mem_append.mp h with hname | hdot
  · obtain ⟨hpiece, hne⟩ := List.mem_filter.mp hname
    constructor
    · simpa using hne
    · exact slash_not_mem_of_mem_piecesFrom List.not_mem_nil hpiece
  · split at hdot
    · rw [List.mem_singleton.mp hdot]
      exact ⟨by decide, by decide⟩
    · exact absurd hdot List.not_mem_nil

theorem walk_plain {d : Disk} {links : Nat} {here todo place : List FileName}
    {n : DiskNode} (hhere : ∀ name ∈ here, IsPlain name)
    (htodo : ∀ name ∈ todo, IsStep name)
    (h : d.walk links here todo = .ok (.found place n)) :
    ∀ name ∈ place, IsPlain name := by
  have hcons {name : FileName} {here : List FileName}
      (hhere : ∀ name ∈ here, IsPlain name)
      (hstep : IsStep name) (hdot : name ≠ [dot]) (hparent : name ≠ parent) :
      ∀ other ∈ name :: here, IsPlain other := by
    intro other ho
    rcases List.mem_cons.mp ho with rfl | hrest
    · exact ⟨hstep.1, hstep.2, hdot, hparent⟩
    · exact hhere other hrest
  fun_induction walk d links here todo with
  | case1 links here =>
      obtain ⟨rfl, -⟩ : here.reverse = place ∧ DiskNode.directory = n := by
        simpa using h
      simpa using hhere
  | case2 links here rest ih =>
      exact ih hhere (fun other ho => htodo other (List.mem_cons_of_mem _ ho)) h
  | case3 links here rest hdot ih =>
      exact ih (fun other ho => hhere other (List.mem_of_mem_tail ho))
        (fun other ho => htodo other (List.mem_cons_of_mem _ ho)) h
  | case4 => simp at h
  | case5 => simp at h
  | case6 => simp at h
  | case7 links here name rest hdot hparent hlong at_ hnode ih =>
      exact ih (hcons hhere (htodo name List.mem_cons_self) hdot hparent)
        (fun other ho => htodo other (List.mem_cons_of_mem _ ho)) h
  | case8 links here name hdot hparent hlong at_ bytes hnode =>
      obtain ⟨rfl, -⟩ : at_ = place ∧ DiskNode.file bytes = n := by
        simpa using h
      intro other ho
      exact hcons hhere (htodo name List.mem_cons_self) hdot hparent other
        (List.mem_reverse.mp ho)
  | case9 => simp at h
  | case10 => simp at h
  | case11 here name rest hdot hparent hlong at_ target hnode links ih =>
      refine ih ?_ ?_ h
      · intro other ho
        split at ho
        · exact absurd ho List.not_mem_nil
        · exact hhere other ho
      · intro other ho
        rcases List.mem_append.mp ho with hstep | hrest
        · exact isStep_of_mem_steps hstep
        · exact htodo other (List.mem_cons_of_mem _ hrest)

/-- A path that can be located is walked along its names. -/
theorem locate_eq_walk {d : Disk} {p : FilePath} {t : Target}
    (h : d.locate p = .ok t) :
    d.walk maxLinks (if p.isAbsolute then [] else d.current.reverse) (steps p) =
      .ok t := by
  unfold locate at h
  split at h
  · exact nomatch h
  · split at h
    · exact nomatch h
    · split at h
      · exact nomatch h
      · exact h

theorem locate_plain {d : Disk} {p : FilePath} {place : List FileName}
    {n : DiskNode} (h : d.locate p = .ok (.found place n)) :
    ∀ name ∈ place, IsPlain name := by
  refine walk_plain ?_ (fun name => isStep_of_mem_steps) (locate_eq_walk h)
  intro name hname
  split at hname
  · exact absurd hname List.not_mem_nil
  · exact d.current_plain name (List.mem_reverse.mp hname)

theorem realPath_eq_ok_iff {d : Disk} {p q : FilePath} :
    d.realPath p = .ok q ↔ ∃ place n, d.locate p = .ok (.found place n) ∧
    q = ofComponents place := by
  unfold realPath
  constructor
  · intro h
    split at h
    · next place n hlocate =>
        exact ⟨place, n, hlocate, (Except.ok.inj h).symm⟩
    · exact nomatch h
    · exact nomatch h
  · rintro ⟨place, n, hlocate, rfl⟩
    rw [hlocate]

/-- The real path of a file is real. -/
theorem isReal_of_realPath {d : Disk} {p q : FilePath}
    (h : d.realPath p = .ok q) : q.IsReal := by
  obtain ⟨place, n, hlocate, rfl⟩ := realPath_eq_ok_iff.mp h
  exact ⟨place, locate_plain hlocate, rfl⟩

end Disk
end CodeIntel
