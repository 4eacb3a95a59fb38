import CodeIntel.Proofs.Disk.RealPath
import Mathlib.Data.List.Basic

/-!
# Writing files

Writing a file changes what is read under the names of that file and nothing
else: every path that led somewhere leads there still. A real path leads to the
file that it is the real path of.
-/

namespace CodeIntel
namespace Disk

open FilePath

/-! # Nodes -/

theorem node?_nil (d : Disk) : d.node? [] = some .directory :=
  if_pos rfl

/-- A place at which there is a file, or nothing yet. -/
def IsWritable (d : Disk) (place : List FileName) : Prop :=
  ∀ n, d.node? place = some n → ∃ bytes, n = .file bytes

namespace IsWritable

variable {d : Disk} {at_ : List FileName}

theorem ne_nil (h : d.IsWritable at_) : at_ ≠ [] := by
  rintro rfl
  obtain ⟨bytes, hfile⟩ := h _ d.node?_nil
  exact nomatch hfile

theorem node?_put (h : d.IsWritable at_) (bytes : List UInt8)
    (place : List FileName) :
    (d.put at_ (.file bytes)).node? place =
      if place = at_ then some (.file bytes) else d.node? place := by
  by_cases hplace : place = at_
  · rw [if_pos hplace, hplace]
    exact node?_put_self h.ne_nil d _
  · rw [if_neg hplace]
    exact node?_put_of_ne hplace d _

theorem node?_put_of_not_file (h : d.IsWritable at_) (bytes : List UInt8)
    {place : List FileName} {n : DiskNode} (hnode : d.node? place = some n)
    (hn : ∀ b, n ≠ .file b) :
    (d.put at_ (.file bytes)).node? place = some n := by
  have hplace : place ≠ at_ := by
    rintro rfl
    obtain ⟨b, hfile⟩ := h n hnode
    exact hn b hfile
  rw [h.node?_put, if_neg hplace, hnode]

end IsWritable

/-! # Walking after a write -/

def Target.overwritten (at_ : List FileName) (bytes : List UInt8) :
    Target → Target
  | .found place (.file old) =>
    .found place (.file (if place = at_ then bytes else old))
  | .found place n => .found place n
  | .missing place =>
    if place = at_ then .found place (.file bytes) else .missing place

theorem walk_put {d : Disk} {at_ : List FileName} (hat : d.IsWritable at_)
    (bytes : List UInt8) {links : Nat} {here todo : List FileName} {t : Target}
    (h : d.walk links here todo = .ok t) :
    (d.put at_ (.file bytes)).walk links here todo =
      .ok (t.overwritten at_ bytes) := by
  fun_induction walk d links here todo with
  | case1 links here =>
      rw [walk]
      obtain rfl := Except.ok.inj h
      rfl
  | case2 links here rest ih =>
      rw [walk, if_pos rfl]
      exact ih h
  | case3 links here rest hdot ih =>
      rw [walk, if_neg hdot, if_pos rfl]
      exact ih h
  | case4 => cases h
  | case5 links here name hdot hparent hlong place hnode =>
      obtain rfl := Except.ok.inj h
      rw [walk, if_neg hdot, if_neg hparent, if_neg hlong]
      have hput := hat.node?_put bytes (name :: here).reverse
      by_cases hplace : place = at_
      · have hnew := hput.trans (if_pos hplace)
        simp only [hnew, Target.overwritten, if_pos hplace]
        rfl
      · have hold := (hput.trans (if_neg hplace)).trans hnode
        simp only [hold, Target.overwritten, if_neg hplace]
        rfl
  | case6 => cases h
  | case7 links here name rest hdot hparent hlong place hnode ih =>
      have hput : (d.put at_ (.file bytes)).node? (name :: here).reverse = _ :=
        hat.node?_put_of_not_file bytes hnode fun _ hfile =>
          DiskNode.noConfusion hfile
      rw [walk, if_neg hdot, if_neg hparent, if_neg hlong]
      simp only [hput]
      exact ih h
  | case8 links here name hdot hparent hlong place old hnode =>
      obtain rfl := Except.ok.inj h
      have hput : (d.put at_ (.file bytes)).node? (name :: here).reverse =
          some (.file (if place = at_ then bytes else old)) := by
        rw [hat.node?_put, show d.node? (name :: here).reverse = _ from hnode]
        split <;> rfl
      rw [walk, if_neg hdot, if_neg hparent, if_neg hlong]
      simp only [hput, Target.overwritten]
      rfl
  | case9 => cases h
  | case10 => cases h
  | case11 here name rest hdot hparent hlong place target hnode links ih =>
      have hput : (d.put at_ (.file bytes)).node? (name :: here).reverse = _ :=
        hat.node?_put_of_not_file bytes hnode fun _ hfile =>
          DiskNode.noConfusion hfile
      rw [walk, if_neg hdot, if_neg hparent, if_neg hlong]
      simp only [hput]
      exact ih h

theorem locate_put {d : Disk} {at_ : List FileName} (hat : d.IsWritable at_)
    (bytes : List UInt8) {p : FilePath} {t : Target} (h : d.locate p = .ok t) :
    (d.put at_ (.file bytes)).locate p = .ok (t.overwritten at_ bytes) := by
  unfold locate at h ⊢
  split at h
  · exact nomatch h
  · next hnul =>
      split at h
      · exact nomatch h
      · next hempty =>
          split at h
          · exact nomatch h
          · next hlong =>
              rw [if_neg hnul, if_neg hempty, if_neg hlong]
              exact walk_put hat bytes h

/-! # Places -/

def IsDirectoryChain (d : Disk) (place : List FileName) : Prop :=
  ∀ front, front <+: place → d.node? front = some .directory

def HasCurrent (d : Disk) : Prop :=
  d.IsDirectoryChain d.current

namespace IsDirectoryChain

variable {d : Disk} {place : List FileName}

theorem nil (d : Disk) : d.IsDirectoryChain [] := by
  intro front hfront
  rw [List.prefix_nil.mp hfront]
  exact d.node?_nil

theorem mono {front : List FileName} (h : d.IsDirectoryChain place)
    (hfront : front <+: place) :
    d.IsDirectoryChain front :=
  fun first hfirst => h first (hfirst.trans hfront)

theorem concat {name : FileName} (h : d.IsDirectoryChain place)
    (hnode : d.node? (place ++ [name]) = some .directory) :
    d.IsDirectoryChain (place ++ [name]) := by
  intro front hfront
  rcases List.prefix_concat_iff.mp hfront with heq | hbefore
  · rw [heq, hnode]
  · exact h front hbefore

end IsDirectoryChain

/-- A file or a directory to which directories lead. -/
structure Holds (d : Disk) (place : List FileName) (n : DiskNode) : Prop where
  node : d.node? place = some n
  chain :
    ∀ front, front <+: place → front ≠ place → d.node? front = some .directory
  not_link : ∀ target, n ≠ .link target

theorem Holds.of_concat {d : Disk} {place : List FileName} {name : FileName}
    {n : DiskNode} (h : d.IsDirectoryChain place)
    (hnode : d.node? (place ++ [name]) = some n)
    (hlink : ∀ target, n ≠ .link target) : d.Holds (place ++ [name]) n := by
  refine ⟨hnode, fun front hfront hne => ?_, hlink⟩
  rcases List.prefix_concat_iff.mp hfront with heq | hbefore
  · exact absurd heq hne
  · exact h front hbefore

theorem walk_holds {d : Disk} {links : Nat} {here todo place : List FileName}
    {n : DiskNode} (hhere : d.IsDirectoryChain here.reverse)
    (h : d.walk links here todo = .ok (.found place n)) : d.Holds place n := by
  fun_induction walk d links here todo with
  | case1 links here =>
      obtain ⟨rfl, rfl⟩ : here.reverse = place ∧ DiskNode.directory = n := by
        simpa using h
      constructor
      · exact hhere _ List.prefix_rfl
      · intro front hfront _
        exact hhere front hfront
      · intro target hlink
        cases hlink
  | case2 links here rest ih =>
      exact ih hhere h
  | case3 links here rest hdot ih =>
      refine ih (hhere.mono ?_) h
      rw [List.reverse_prefix]
      exact List.tail_suffix here
  | case4 => cases h
  | case5 => cases h
  | case6 => cases h
  | case7 links here name rest hdot hparent hlong at_ hnode ih =>
      refine ih ?_ h
      rw [List.reverse_cons]
      refine hhere.concat ?_
      rw [← List.reverse_cons]
      exact hnode
  | case8 links here name hdot hparent hlong at_ bytes hnode =>
      obtain ⟨rfl, rfl⟩ : at_ = place ∧ DiskNode.file bytes = n := by
        simpa using h
      have hat : at_ = here.reverse ++ [name] := List.reverse_cons
      rw [hat] at hnode ⊢
      apply Holds.of_concat hhere hnode
      intro target hlink
      cases hlink
  | case9 => cases h
  | case10 => cases h
  | case11 here name rest hdot hparent hlong at_ target hnode links ih =>
      refine ih ?_ h
      split
      · exact IsDirectoryChain.nil d
      · exact hhere

theorem walk_missing {d : Disk} {links : Nat} {here todo place : List FileName}
    (h : d.walk links here todo = .ok (.missing place)) :
    d.node? place = none := by
  fun_induction walk d links here todo with
  | case1 => cases h
  | case2 links here rest ih =>
      exact ih h
  | case3 links here rest hdot ih =>
      exact ih h
  | case4 => cases h
  | case5 links here name hdot hparent hlong at_ hnode =>
      obtain rfl : at_ = place := by simpa using h
      exact hnode
  | case6 => cases h
  | case7 links here name rest hdot hparent hlong at_ hnode ih =>
      exact ih h
  | case8 => cases h
  | case9 => cases h
  | case10 => cases h
  | case11 here name rest hdot hparent hlong at_ target hnode links ih =>
      exact ih h

theorem walk_of_holds {d : Disk} {links : Nat} {here todo : List FileName}
    {n : DiskNode} {t : Target} (hplain : ∀ name ∈ todo, IsPlain name)
    (hhere : d.node? here.reverse = some .directory)
    (hend : d.Holds (here.reverse ++ todo) n)
    (h : d.walk links here todo = .ok t) :
    t = .found (here.reverse ++ todo) n := by
  induction todo generalizing here with
  | nil =>
      rw [walk] at h
      have hnode := hend.node
      rw [List.append_nil] at hnode ⊢
      rw [← Except.ok.inj h, Option.some.inj (hhere.symm.trans hnode)]
  | cons name rest ih =>
      obtain ⟨-, -, hdot, hparent⟩ := hplain name List.mem_cons_self
      have hplace :
          here.reverse ++ name :: rest = (name :: here).reverse ++ rest := by
        rw [List.reverse_cons, List.append_assoc, List.singleton_append]
      rw [walk, if_neg hdot, if_neg (show name ≠ parent from hparent)] at h
      split at h
      · cases h
      · by_cases hrest : rest = []
        · subst hrest
          have hnode : d.node? (name :: here).reverse = some n := by
            have hlast := hend.node
            rwa [hplace, List.append_nil] at hlast
          rw [hplace, List.append_nil]
          cases n with
          | file bytes =>
              simp only [hnode, if_true] at h
              exact (Except.ok.inj h).symm
          | directory =>
              simp only [hnode, walk] at h
              exact (Except.ok.inj h).symm
          | link target =>
              exact absurd rfl (hend.not_link target)
        · have hnode : d.node? (name :: here).reverse = some .directory := by
            refine hend.chain _ ?_ ?_
            · rw [hplace]
              exact List.prefix_append _ _
            · intro heq
              rw [hplace] at heq
              exact hrest (List.self_eq_append_right.mp heq)
          simp only [hnode] at h
          rw [hplace] at hend ⊢
          exact ih (fun other ho => hplain other (List.mem_cons_of_mem _ ho))
            hnode hend h

/-! # Real paths -/

theorem locate_holds {d : Disk} (hd : d.HasCurrent) {p : FilePath}
    {place : List FileName} {n : DiskNode}
    (h : d.locate p = .ok (.found place n)) : d.Holds place n := by
  refine walk_holds ?_ (locate_eq_walk h)
  split
  · exact IsDirectoryChain.nil d
  · rw [List.reverse_reverse]
    exact hd

theorem steps_ofComponents {place : List FileName}
    (hplain : ∀ name ∈ place, IsPlain name) (hne : place ≠ []) :
    steps (ofComponents place) = place := by
  obtain ⟨front, name, rfl⟩ := (List.eq_nil_or_concat place).resolve_left hne
  rw [List.concat_eq_append] at hplain ⊢
  obtain ⟨hname, hslash, -, -⟩ := hplain name (by simp)
  have hbytes : (ofComponents (front ++ [name])).bytes =
      front.flatMap (slash :: ·) ++ slash :: name := by
    cases front <;> simp [ofComponents]
  have hlast :
      (ofComponents (front ++ [name])).bytes.getLast? = name.getLast? := by
    rw [hbytes, List.getLast?_append_of_ne_nil _ (by simp),
      List.getLast?_cons_of_ne_nil hname]
  have hend : (ofComponents (front ++ [name])).bytes.getLast? ≠ some slash := by
    intro h
    exact hslash (List.mem_of_getLast? (hlast ▸ h))
  rw [steps, names_ofComponents hplain, if_neg hend, List.append_nil]

theorem locate_ofComponents {d : Disk} {place : List FileName} {n : DiskNode}
    {t : Target} (hplain : ∀ name ∈ place, IsPlain name)
    (hplace : d.Holds place n) (h : d.locate (ofComponents place) = .ok t) :
    t = .found place n := by
  have hwalk := locate_eq_walk h
  rw [isAbsolute_ofComponents, if_pos rfl] at hwalk
  by_cases hne : place = []
  · subst hne
    have hn : n = .directory := by
      simpa [node?_nil] using hplace.node.symm
    have hsteps : steps (ofComponents []) = [[dot]] := by
      decide
    rw [hsteps, walk, if_pos rfl, walk] at hwalk
    rw [hn]
    exact (Except.ok.inj hwalk).symm
  · rw [steps_ofComponents hplain hne] at hwalk
    have hroot : d.node? ([] : List FileName).reverse = some .directory :=
      d.node?_nil
    exact walk_of_holds hplain hroot hplace hwalk

/-- A real path that leads anywhere leads where the path led that it is the real
path of. -/
theorem locate_realPath {d : Disk} (hd : d.HasCurrent) {p r : FilePath}
    {t : Target} (hreal : d.realPath p = .ok r) (ht : d.locate r = .ok t) :
    d.locate p = .ok t := by
  obtain ⟨place, n, hlocate, rfl⟩ := realPath_eq_ok_iff.mp hreal
  rw [locate_ofComponents (locate_plain hlocate) (locate_holds hd hlocate) ht,
    hlocate]

theorem ofComponents_inj {place other : List FileName}
    (h : ∀ name ∈ place, IsPlain name) (ho : ∀ name ∈ other, IsPlain name) :
    ofComponents place = ofComponents other ↔ place = other := by
  constructor
  · intro heq
    rw [← components_ofComponents h, ← components_ofComponents ho, heq]
  · intro heq
    rw [heq]

/-! # What a write changes -/

theorem readText_eq_ok_iff {d : Disk} {p : FilePath} {text : String} :
    d.readText p = .ok text ↔
    ∃ place bytes, d.locate p = .ok (.found place (.file bytes)) ∧
      Utf8.decode? bytes = some text := by
  unfold readText read
  constructor
  · intro h
    split at h
    · next bytes hread =>
        split at hread
        · next place found hlocate =>
            obtain rfl := Except.ok.inj hread
            split at h
            · next t hdecode =>
                exact ⟨place, found, hlocate, by rw [hdecode, Except.ok.inj h]⟩
            · cases h
        all_goals cases hread
    · cases h
  · rintro ⟨place, bytes, hlocate, hdecode⟩
    simp only [hlocate, hdecode]

theorem readText_of_realPath {d : Disk} (hd : d.HasCurrent) {p r : FilePath}
    {text : String} (hreal : d.realPath p = .ok r)
    (hread : d.readText r = .ok text) : d.readText p = .ok text := by
  obtain ⟨place, bytes, hlocate, hdecode⟩ := readText_eq_ok_iff.mp hread
  exact readText_eq_ok_iff.mpr ⟨place, bytes,
    locate_realPath hd hreal hlocate, hdecode⟩

/-- The real path of a file that can be read under it is its own real path. -/
theorem realPath_real {d : Disk} (hd : d.HasCurrent) {p r : FilePath}
    {text : String} (hreal : d.realPath p = .ok r)
    (hread : d.readText r = .ok text) : d.realPath r = .ok r := by
  obtain ⟨place, bytes, hlocate, -⟩ := readText_eq_ok_iff.mp hread
  have hp := locate_realPath hd hreal hlocate
  obtain ⟨place', n, hlocate', hr⟩ := realPath_eq_ok_iff.mp hreal
  rw [realPath_eq_ok_iff]
  refine ⟨place', n, ?_, hr⟩
  rw [hlocate, ← hp, hlocate']

theorem readText_congr {d : Disk} (hd : d.HasCurrent) {p q r : FilePath}
    (hp : d.realPath p = .ok r) (hq : d.realPath q = .ok r) :
    d.readText p = d.readText q := by
  obtain ⟨place, n, hlocate, hr⟩ := realPath_eq_ok_iff.mp hp
  obtain ⟨place', n', hlocate', hr'⟩ := realPath_eq_ok_iff.mp hq
  obtain rfl : place = place' :=
    (ofComponents_inj (locate_plain hlocate) (locate_plain hlocate')).mp
      (hr.symm.trans hr')
  have hnode := (locate_holds hd hlocate).node
  rw [(locate_holds hd hlocate').node] at hnode
  obtain rfl := Option.some.inj hnode
  simp only [readText, read, hlocate, hlocate']

/-- The file that `r` is the real path of holds `text` now. Every other path
leads where it led, and every other file that was text holds what it held. -/
structure Overwrites (d d' : Disk) (r : FilePath) (text : String) : Prop where
  realPath : ∀ {q s}, d.realPath q = .ok s → d'.realPath q = .ok s
  readText : ∀ {q s t}, d.realPath q = .ok s → d.readText q = .ok t →
    d'.readText q = .ok (if s = r then text else t)

theorem put_overwrites {d : Disk} {at_ : List FileName} (hat : d.IsWritable at_)
    (hplain : ∀ name ∈ at_, IsPlain name) (text : String) :
    d.Overwrites (d.put at_ (.file (Utf8.encode text))) (ofComponents at_)
      text := by
  constructor
  · intro q s hreal
    obtain ⟨place, n, hlocate, rfl⟩ := realPath_eq_ok_iff.mp hreal
    have hput := locate_put hat (Utf8.encode text) hlocate
    rw [realPath_eq_ok_iff]
    cases n with
    | file old => exact ⟨place, _, hput, rfl⟩
    | directory => exact ⟨place, _, hput, rfl⟩
    | link target => exact ⟨place, _, hput, rfl⟩
  · intro q s t hreal hread
    obtain ⟨place, old, hlocate, hdecode⟩ := readText_eq_ok_iff.mp hread
    obtain ⟨place', n, hlocate', rfl⟩ := realPath_eq_ok_iff.mp hreal
    obtain ⟨rfl, -⟩ : place' = place ∧ n = .file old := by
      simpa [hlocate] using hlocate'.symm
    have hput := locate_put hat (Utf8.encode text) hlocate
    rw [readText_eq_ok_iff]
    refine ⟨place', _, hput, ?_⟩
    by_cases hplace : place' = at_
    · rw [if_pos hplace, if_pos (congrArg ofComponents hplace),
        Utf8.decode?_encode]
    · have hne : ofComponents place' ≠ ofComponents at_ := fun heq =>
        hplace ((ofComponents_inj (locate_plain hlocate) hplain).mp heq)
      rw [if_neg hplace, if_neg hne, hdecode]

/-- A write puts the text into one file, which the path leads to afterwards. -/
theorem writeText_cases {d d' : Disk} (hd : d.HasCurrent) {p : FilePath}
    {text : String} (h : d.writeText p text = .ok d') :
    ∃ at_, d.IsWritable at_ ∧ d' = d.put at_ (.file (Utf8.encode text)) ∧
      d'.locate p = .ok (.found at_ (.file (Utf8.encode text))) := by
  unfold writeText write at h
  split at h
  · next place old hlocate =>
      obtain rfl := Except.ok.inj h
      have hwritable : d.IsWritable place := by
        intro n hn
        have hnode := (locate_holds hd hlocate).node
        exact ⟨old, Option.some.inj (hn.symm.trans hnode)⟩
      refine ⟨place, hwritable, rfl, ?_⟩
      rw [locate_put hwritable _ hlocate, Target.overwritten, if_pos rfl]
  · exact nomatch h
  · next place hlocate =>
      obtain rfl := Except.ok.inj h
      have hwritable : d.IsWritable place := by
        intro n hn
        rw [walk_missing (locate_eq_walk hlocate)] at hn
        exact nomatch hn
      refine ⟨place, hwritable, rfl, ?_⟩
      rw [locate_put hwritable _ hlocate, Target.overwritten, if_pos rfl]
  · exact nomatch h

theorem writeText_overwrites {d d' : Disk} (hd : d.HasCurrent) {p : FilePath}
    {text : String} (h : d.writeText p text = .ok d') :
    ∃ r, d'.realPath p = .ok r ∧ d.Overwrites d' r text := by
  obtain ⟨at_, hwritable, rfl, hlocate⟩ := writeText_cases hd h
  exact ⟨_, realPath_eq_ok_iff.mpr ⟨at_, _, hlocate, rfl⟩,
    put_overwrites hwritable (locate_plain hlocate) text⟩

theorem readText_writeText {d d' : Disk} (hd : d.HasCurrent) {p : FilePath}
    {text : String} (h : d.writeText p text = .ok d') :
    d'.readText p = .ok text := by
  obtain ⟨at_, -, -, hlocate⟩ := writeText_cases hd h
  exact readText_eq_ok_iff.mpr ⟨at_, _, hlocate, Utf8.decode?_encode text⟩

theorem HasCurrent.writeText {d d' : Disk} (hd : d.HasCurrent) {p : FilePath}
    {text : String} (h : d.writeText p text = .ok d') : d'.HasCurrent := by
  obtain ⟨at_, hwritable, rfl, -⟩ := writeText_cases hd h
  intro front hfront
  have hdir := hd front hfront
  have hne : front ≠ at_ := by
    rintro rfl
    obtain ⟨bytes, hfile⟩ := hwritable _ hdir
    exact nomatch hfile
  rw [node?_put_of_ne hne, hdir]

theorem exists_writeText {d : Disk} {p : FilePath} {old : String}
    (h : d.readText p = .ok old) (text : String) :
    ∃ d', d.writeText p text = .ok d' := by
  obtain ⟨place, bytes, hlocate, -⟩ := readText_eq_ok_iff.mp h
  refine ⟨d.put place (.file (Utf8.encode text)), ?_⟩
  simp only [writeText, write, hlocate]

theorem exists_writeText_after {d d' : Disk} (hd : d.HasCurrent)
    {p q r : FilePath} {text other : String} (hreal : d.realPath q = .ok r)
    (hq : ∃ e, d.writeText q text = .ok e) (h : d.writeText p other = .ok d') :
    ∃ e, d'.writeText q text = .ok e := by
  obtain ⟨at_, hwritable, rfl, -⟩ := writeText_cases hd h
  obtain ⟨place, n, hlocate, -⟩ := realPath_eq_ok_iff.mp hreal
  have hafter := locate_put hwritable (Utf8.encode other) hlocate
  obtain ⟨e, hq⟩ := hq
  cases n with
  | file bytes =>
      rw [Target.overwritten] at hafter
      simp only [writeText, write, hafter]
      exact ⟨_, rfl⟩
  | directory =>
      simp only [writeText, write, hlocate] at hq
      exact nomatch hq
  | link target =>
      simp only [writeText, write, hlocate] at hq
      exact nomatch hq

end Disk
end CodeIntel
