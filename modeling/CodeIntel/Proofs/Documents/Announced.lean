import CodeIntel.Proofs.Documents.Mirror
import Mathlib.Data.List.Basic
import Mathlib.Data.List.Induction

/-!
# Documents that are announced

What was written tells which documents a server has open: those of which a later
message than the last one that closed them has opened them. This is said of the
messages alone, without a server, and a server that has heard the messages has
just these documents open.
-/

namespace CodeIntel

namespace Message

def documentOf (params : Json) : String :=
  Mock.Server.textAt ["textDocument", "uri"] params

def opens? : Message → Option String
  | .notification method params =>
    if method = Documents.openMethod then some (documentOf params) else none
  | _ => none

def closes? : Message → Option String
  | .notification method params =>
    if method = Documents.closeMethod then some (documentOf params) else none
  | _ => none

theorem opens?_openParams (d : OpenDocument) :
    (notification Documents.openMethod (Documents.openParams d)).opens? =
      some d.uri.text := by
  rw [opens?, if_pos rfl, documentOf, (Mock.Server.textAt_openParams d).1]

theorem closes?_closeParams (uri : Url) :
    (notification Documents.closeMethod (Documents.closeParams uri)).closes? =
      some uri.text := by
  rw [closes?, if_pos rfl, documentOf, Mock.Server.textAt_closeParams]

end Message

/-! # Announcements -/

/-- A document was opened by one of the messages, and by no later one closed. -/
def IsAnnounced (uri : String) (wire : List Message) : Prop :=
  ∃ before m after, wire = before ++ m :: after ∧ m.opens? = some uri ∧
    ∀ n ∈ after, n.closes? ≠ some uri

section Announcements

variable {uri : String} {wire : List Message} {m : Message}

theorem not_isAnnounced_nil (uri : String) : ¬ IsAnnounced uri [] := by
  rintro ⟨before, m, after, heq, -⟩
  exact List.append_ne_nil_of_right_ne_nil before
    (List.cons_ne_nil m after) heq.symm

theorem snoc_eq_append_cons {before after : List Message} {n : Message}
    (h : wire ++ [m] = before ++ n :: after) :
    wire = before ∧ m = n ∨ ∃ front, after = front ++ [m] ∧
    wire = before ++ n :: front := by
  rcases List.eq_nil_or_concat' after with rfl | ⟨front, last, rfl⟩
  · obtain ⟨hwire, hm⟩ := List.append_inj' h rfl
    exact .inl ⟨hwire, List.singleton_inj.mp hm⟩
  · rw [← List.cons_append, ← List.append_assoc] at h
    obtain ⟨hwire, hm⟩ := List.append_inj' h rfl
    obtain rfl := List.singleton_inj.mp hm
    exact .inr ⟨front, rfl, hwire⟩

theorem isAnnounced_snoc :
    IsAnnounced uri (wire ++ [m]) ↔
      m.opens? = some uri ∨ IsAnnounced uri wire ∧ m.closes? ≠ some uri := by
  constructor
  · rintro ⟨before, n, after, heq, hopens, hkept⟩
    rcases snoc_eq_append_cons heq with ⟨-, rfl⟩ | ⟨front, rfl, hwire⟩
    · exact .inl hopens
    · refine .inr ⟨⟨before, n, front, hwire, hopens, ?_⟩, ?_⟩
      · intro k hk
        exact hkept k (List.mem_append_left _ hk)
      · exact hkept m (List.mem_append_right _ List.mem_cons_self)
  · rintro (hopens | ⟨⟨before, n, after, rfl, hopens, hkept⟩, hcloses⟩)
    · exact ⟨wire, m, [], rfl, hopens, fun _ hk => nomatch hk⟩
    · refine ⟨before, n, after ++ [m], by simp, hopens, ?_⟩
      intro k hk
      rcases List.mem_append.mp hk with hk | hk
      · exact hkept k hk
      · rwa [List.mem_singleton.mp hk]

/-- A document is announced by what was written last, or it was announced before
and is not closed. -/
theorem isAnnounced_append (earlier sent : List Message) :
    IsAnnounced uri (earlier ++ sent) ↔
      IsAnnounced uri sent ∨ IsAnnounced uri earlier ∧
      ∀ m ∈ sent, m.closes? ≠ some uri := by
  induction sent using List.reverseRecOn with
  | nil =>
      simp [not_isAnnounced_nil]
  | append_singleton sent m ih =>
      rw [← List.append_assoc, isAnnounced_snoc, ih, isAnnounced_snoc]
      simp only [List.mem_append, List.mem_singleton]
      constructor
      · rintro (hopens | ⟨hsent | ⟨hearlier, hkept⟩, hcloses⟩)
        · exact .inl (.inl hopens)
        · exact .inl (.inr ⟨hsent, hcloses⟩)
        · refine .inr ⟨hearlier, ?_⟩
          rintro n (hn | rfl)
          · exact hkept n hn
          · exact hcloses
      · rintro ((hopens | ⟨hsent, hcloses⟩) | ⟨hearlier, hkept⟩)
        · exact .inl hopens
        · exact .inr ⟨.inl hsent, hcloses⟩
        · exact .inr ⟨.inr ⟨hearlier, fun n hn => hkept n (.inl hn)⟩,
            hkept m (.inr rfl)⟩

end Announcements

/-! # What a server makes of it -/

namespace Mock.Server

def HasOpen (s : Server) (uri : String) : Prop :=
  ∃ doc, s.document? uri = some doc ∧ doc.isOpen = true

theorem hasOpen_noteOpen (s : Server) (params : Json) (uri : String) :
    (s.noteOpen params).HasOpen uri ↔ Message.documentOf params = uri ∨
    s.HasOpen uri := by
  unfold HasOpen Message.documentOf
  rw [noteOpen, document?_publish, document?_setDocument]
  by_cases h : textAt ["textDocument", "uri"] params = uri
  · simp [h]
  · simp [h, Ne.symm h]

theorem hasOpen_noteChange (s : Server) (params : Json) (uri : String) :
    (s.noteChange params).HasOpen uri ↔ s.HasOpen uri := by
  unfold HasOpen
  rw [noteChange, document?_publish, document?_changeDocument]
  split
  · next heq =>
      subst heq
      cases s.document? (textAt ["textDocument", "uri"] params) <;> simp
  · exact Iff.rfl

theorem hasOpen_noteClose (s : Server) (params : Json) (uri : String) :
    (s.noteClose params).HasOpen uri ↔ s.HasOpen uri ∧
    Message.documentOf params ≠ uri := by
  unfold HasOpen Message.documentOf
  rw [noteClose, document?_changeDocument]
  split
  · next heq =>
      subst heq
      cases s.document? (textAt ["textDocument", "uri"] params) <;> simp
  · next hne =>
      simp [Ne.symm hne]

theorem hasOpen_hear (s : Server) (m : Message) (uri : String) :
    (s.hear m).HasOpen uri ↔ m.opens? = some uri ∨ s.HasOpen uri ∧
    m.closes? ≠ some uri := by
  cases m with
  | notification method params =>
      by_cases hopen : method = Documents.openMethod
      · subst hopen
        rw [hear_open, hasOpen_noteOpen]
        have hclose : Documents.openMethod ≠ Documents.closeMethod := by decide
        simp [Message.opens?, Message.closes?, hclose]
      · by_cases hclose : method = Documents.closeMethod
        · subst hclose
          rw [hear_close, hasOpen_noteClose]
          simp [Message.opens?, Message.closes?, hopen]
        · have hnone : (Message.notification method params).opens? = none :=
            if_neg hopen
          have hkept : (Message.notification method params).closes? = none :=
            if_neg hclose
          rw [hnone, hkept]
          by_cases hchange : method = Documents.changeMethod
          · subst hchange
            rw [hear_change, hasOpen_noteChange]
            simp
          · simp [hear, isDocumentMethod, hopen, hchange, hclose]
  | request id method params =>
      simp [hear, Message.opens?, Message.closes?]
  | success id result =>
      simp [hear, Message.opens?, Message.closes?]
  | failure id error =>
      simp [hear, Message.opens?, Message.closes?]
  | value v =>
      simp [hear, Message.opens?, Message.closes?]

def listener : Server where
  behaviour := {}
  fixture := {}

/-- A server that has heard some messages has those documents open that they
announce. -/
theorem hasOpen_hearAll (wire : List Message) (uri : String) :
    (listener.hearAll wire).HasOpen uri ↔ IsAnnounced uri wire := by
  induction wire using List.reverseRecOn with
  | nil =>
      constructor
      · rintro ⟨doc, hdoc, -⟩
        exact nomatch hdoc
      · intro h
        exact absurd h (not_isAnnounced_nil uri)
  | append_singleton wire m ih =>
      rw [hearAll_snoc, hasOpen_hear, ih, isAnnounced_snoc]

end Mock.Server

/-! # Documents and announcements -/

namespace Documents

open Mock.Server (listener)

variable {s : Documents}

theorem IsMirrored.isAnnounced (h : s.IsMirrored listener) {path : FilePath}
    {d : OpenDocument} (hd : s.table.find? path = some (.opened d)) :
    IsAnnounced d.uri.text s.connection.wire := by
  obtain ⟨doc, hdoc, hisOpen, -⟩ := h.known path d hd
  exact (Mock.Server.hasOpen_hearAll _ _).mp ⟨doc, hdoc, hisOpen⟩

theorem IsMirrored.exists_of_isAnnounced (h : s.IsMirrored listener)
    (hlive : s.connection.closed = false) {uri : String}
    (hannounced : IsAnnounced uri s.connection.wire) :
    ∃ path d, s.table.find? path = some (.opened d) ∧ d.uri.text = uri := by
  obtain ⟨doc, hdoc, hisOpen⟩ :=
    (Mock.Server.hasOpen_hearAll _ _).mpr hannounced
  exact h.noOther hlive uri doc hdoc hisOpen

theorem Bystands.isAnnounced_iff {c c' : Connection} (h : Bystands c c')
    {uri : String} :
    IsAnnounced uri c'.wire ↔ IsAnnounced uri c.wire := by
  rw [← Mock.Server.hasOpen_hearAll, h.heard, Mock.Server.hasOpen_hearAll]

theorem isMirrored_of_none
    (hnone : ∀ path d, s.table.find? path ≠ some (.opened d))
    (hwire : s.connection.closed = false →
      ∀ uri, ¬ IsAnnounced uri s.connection.wire) :
    s.IsMirrored listener := by
  constructor
  · intro path d hd
    exact absurd hd (hnone path d)
  · intro path d hd
    exact absurd hd (hnone path d)
  · intro hlive uri doc hdoc hisOpen
    exact absurd ((Mock.Server.hasOpen_hearAll _ _).mp ⟨doc, hdoc, hisOpen⟩)
      (hwire hlive uri)

end Documents
end CodeIntel
