import CodeIntel.Proofs.Connection.Slots

/-!
# What is written behind what was written

A connection is only ever written to behind the messages that are on the wire.
Each operation writes at most one message, so that whatever holds of that
message holds of all that the operation writes.
-/

namespace CodeIntel
namespace Connection

/-- Messages were written behind those on the wire, all of which have a
property. -/
def Sends (P : Message → Prop) (c c' : Connection) : Prop :=
  ∃ sent, c'.wire = c.wire ++ sent ∧ ∀ m ∈ sent, P m

namespace Sends

variable {P : Message → Prop} {a b c c' : Connection}

theorem of_wire (h : c'.wire = c.wire) : Sends P c c' :=
  ⟨[], by rw [h, List.append_nil], fun _ hm => nomatch hm⟩

theorem refl (c : Connection) : Sends P c c :=
  of_wire rfl

theorem trans (hab : Sends P a b) (hbc : Sends P b c) : Sends P a c := by
  obtain ⟨sent, hb, hsent⟩ := hab
  obtain ⟨more, hc, hmore⟩ := hbc
  refine ⟨sent ++ more, by rw [hc, hb, List.append_assoc], ?_⟩
  intro m hm
  rcases List.mem_append.mp hm with hm | hm
  · exact hsent m hm
  · exact hmore m hm

theorem snoc {m : Message} (hm : P m) (h : c'.wire = c.wire ++ [m]) :
    Sends P c c' := by
  refine ⟨[m], h, ?_⟩
  intro m' hm'
  rwa [List.mem_singleton.mp hm']

/-! # Operations -/

theorem write {m : Message} (hm : P m) (c : Connection) :
    Sends P c (c.write m).2 := by
  rcases write_cases c m with ⟨-, -, heq⟩ | ⟨-, -, heq⟩ | ⟨-, heq⟩
  · rw [heq]
    exact snoc hm rfl
  · rw [heq]
    exact of_wire (close_wire c)
  · rw [heq]
    exact refl c

theorem startCall {method : String} {params : Json}
    (h : ∀ id, P (.request id method params)) (c : Connection) :
    Sends P c (c.startCall method params).2 := by
  rcases startCall_cases c method params with
    ⟨-, -, heq⟩ | ⟨-, -, heq⟩ | ⟨-, heq⟩
  · rw [heq]
    exact snoc (h (number c.nextCall)) rfl
  · rw [heq]
    exact of_wire (by rw [release_wire, close_wire, entered_wire])
  · rw [heq]
    exact refl c

theorem dispatch (hsuccess : ∀ id result, P (.success id result))
    (hfailure : ∀ id error, P (.failure id error)) (frame : Json)
    (c : Connection) :
    Sends P c (c.dispatch frame) := by
  unfold Connection.dispatch
  split
  · exact of_wire (complete_wire c _ _)
  · exact of_wire rfl
  · apply write
    unfold response
    split
    · exact hsuccess _ _
    · exact hfailure _ _
  · exact refl c

end Sends

theorem not_closed_of_startCall {c c' : Connection} {method : String}
    {params : Json} {id : Nat} (h : c.startCall method params = (.ok id, c')) :
    c.closed = false := by
  rcases startCall_cases c method params with ⟨hopen, -⟩ | ⟨hopen, -⟩ | ⟨-, heq⟩
  · exact hopen
  · exact hopen
  · exact nomatch (Prod.mk.inj (heq.symm.trans h)).1

end Connection
end CodeIntel
