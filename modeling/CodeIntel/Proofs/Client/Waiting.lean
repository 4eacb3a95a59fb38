import CodeIntel.Client.Exchange

/-!
# What happens while a client waits

A client that waits hands over its messages, reads what the process sends and
takes note of its end. Whatever relates a client before and after each of these
acts, and does not look at the process or the clock, also relates it before and
after the whole wait.
-/

namespace CodeIntel

theorem bind_apply {ε s α β : Type} (x : ExceptT ε (StateM s) α)
    (f : α → ExceptT ε (StateM s) β) (c : s) :
    (x >>= f) c = match x c with
      | (.ok a, c) => f a c
      | (.error e, c) => (.error e, c) := by
  show (match x c with
    | (r, c) => ExceptT.bindCont f r c) = _
  cases x c with
  | mk r c =>
      cases r <;> rfl

theorem get_bind_apply {ε s β : Type} (f : s → ExceptT ε (StateM s) β) (c : s) :
    (getThe s >>= f) c = f c c := rfl

theorem bind_eq_ok {ε s α β : Type} {x : ExceptT ε (StateM s) α}
    {f : α → ExceptT ε (StateM s) β} {c c' : s} {b : β} :
    (x >>= f) c = (.ok b, c') ↔ ∃ a after, x c = (.ok a, after) ∧
    f a after = (.ok b, c') := by
  rw [bind_apply]
  cases x c with
  | mk r after =>
      cases r with
      | ok a =>
          constructor
          · intro h
            exact ⟨a, after, rfl, h⟩
          · rintro ⟨a', after', heq, h⟩
            obtain ⟨ha, rfl⟩ := Prod.mk.inj heq
            rwa [Except.ok.inj ha]
      | error e =>
          constructor
          · intro h
            exact nomatch (Prod.mk.inj h).1
          · rintro ⟨a', after', heq, -⟩
            exact nomatch (Prod.mk.inj heq).1

namespace Client

variable {σ : Type}

/-- A relation between a client and what becomes of it, which every act of
waiting respects. -/
structure Permits (R : Client σ → Client σ → Prop) : Prop where
  trans : ∀ {a b c}, R a b → R b c → R a c
  /-- Process, clock and reports do not matter. -/
  same :
    ∀ {c c'}, c'.root = c.root → c'.disk = c.disk → c'.documents = c.documents →
    c'.state = c.state → c'.outcome = c.outcome → R c c'
  dispatch : ∀ frame c, R c (c.onConnection (·.dispatch frame))
  close : ∀ c, R c (c.onConnection Connection.close)

namespace Permits

variable {R : Client σ → Client σ → Prop}

theorem refl (h : Permits R) (c : Client σ) : R c c :=
  h.same rfl rfl rfl rfl rfl

/-! # Settling -/

theorem perform (h : Permits R) (act : PeerAct) (c : Client σ) :
    R c (c.perform act) := by
  cases act with
  | send frame =>
      rw [Client.perform]
      split
      · unfold Client.dispatch
        split
        · next method params hnotified =>
            have hnoted :
                R c { c with store := c.store.receive method params } :=
              h.same rfl rfl rfl rfl rfl
            exact h.trans hnoted (h.dispatch frame _)
        · exact h.dispatch frame c
      · exact h.refl c
  | hangUp =>
      exact h.close c
  | exit code =>
      exact h.trans (h.close c) (h.same rfl rfl rfl rfl rfl)

theorem performDue (h : Permits R) (fuel : Nat) (c : Client σ) :
    R c (c.performDue fuel) := by
  induction fuel generalizing c with
  | zero =>
      exact h.refl c
  | succ fuel ih =>
      rw [Client.performDue]
      split
      · next act peer hdue =>
          have htaken : R c { c with peer := peer } :=
            h.same rfl rfl rfl rfl rfl
          exact h.trans (h.trans htaken (h.perform act _)) (ih _)
      · exact h.refl c

theorem settleWith (h : Permits R) (rounds : Nat) (c : Client σ) :
    R c (c.settleWith rounds) := by
  induction rounds generalizing c with
  | zero =>
      exact h.refl c
  | succ rounds ih =>
      have hdeliver : R c c.deliver := h.same rfl rfl rfl rfl rfl
      have hround :=
        h.trans hdeliver (h.performDue c.deliver.peer.agenda.length c.deliver)
      rw [Client.settleWith]
      split
      · exact hround
      · exact h.trans hround (ih _)

theorem settle (h : Permits R) (c : Client σ) : R c c.settle :=
  h.settleWith maxRounds c

/-! # Waiting -/

theorem waitWith (h : Permits R) (done : Client σ → Bool) (deadline fuel : Nat)
    (c : Client σ) :
    R c (c.waitWith done deadline fuel) := by
  induction fuel generalizing c with
  | zero =>
      exact h.refl c
  | succ fuel ih =>
      have hsettle := h.settle c
      have hlater : ∀ time, R c { c.settle with clock := time } := by
        intro time
        exact h.trans hsettle (h.same rfl rfl rfl rfl rfl)
      rw [Client.waitWith]
      split
      · exact hsettle
      · split
        · split
          · exact h.trans (hlater _) (ih _)
          · exact hlater _
        · exact hlater _

theorem waitUntil (h : Permits R) (done : Client σ → Bool) (deadline : Nat)
    (c : Client σ) :
    R c (c.waitUntil done deadline) :=
  h.trans (h.settle c) (h.waitWith done deadline _ _)

end Permits
end Client
end CodeIntel
