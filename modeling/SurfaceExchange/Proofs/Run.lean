import SurfaceExchange.Proofs.Operations

/-!
# Runs

A run is a list of operations, each carried out against a shell and a display
of its own, for both may change in any way between two operations. Between
operations the shell may also take its parent changes, and listeners to the
end may come and go (`Aside`). What a run can reach from a new exchange is
`Reachable`, and all of it is sound.
-/

namespace SurfaceExchange

/-- An operation that was carried out. -/
structure Transition (L : Type) where
  before : Exchange
  view : ShellView
  patience : Nat
  display : Display L
  operation : Operation
  answer : Answer
  after : Exchange
  displayAfter : Display L

/-- The exchange did what the transition says. -/
def Transition.Valid {L : Type} (t : Transition L) : Prop :=
  t.before.perform t.view t.patience t.display t.operation =
    some (t.answer, t.after, t.displayAfter)

namespace Exchange

variable {L : Type} {x y z : Exchange}

/-- What may be done to an exchange between two operations. -/
inductive Aside (x : Exchange) : Exchange → Prop
  | takeParentChanges : Aside x x.takeParentChanges.2
  | addFarewell (name : String) : Aside x (x.addFarewell name).2
  | removeFarewell (id : ListenerId) : Aside x (x.removeFarewell id).2

/-- The operations of the list lead from one exchange to another. -/
inductive Run (x : Exchange) : List (Transition L) → Exchange → Prop
  | start : Run x [] x
  | perform {ts} (t : Transition L) : Run x ts t.before → t.Valid → Run x (ts ++ [t]) t.after
  | aside {ts y z} : Run x ts y → Aside y z → Run x ts z

theorem Run.append {ts us : List (Transition L)} (h : Run x ts y) (h' : Run y us z) :
    Run x (ts ++ us) z := by
  induction h' with
  | start => rwa [List.append_nil]
  | perform t _ hvalid ih =>
    rw [← List.append_assoc]
    exact .perform t ih hvalid
  | aside _ haside ih => exact .aside ih haside

/-- An exchange that some run of a new exchange can come to. -/
def Reachable (x : Exchange) : Prop :=
  ∃ (L : Type) (d : Display L) (config : Config) (handles : HandleStream) (l : L)
    (ts : List (Transition L)), Run (start d config handles l).1 ts x

/-! ## What is reachable is sound -/

theorem sound_start (d : Display L) (config : Config) (handles : HandleStream) (l : L) :
    (start d config handles l).1.Sound where
  coherent :=
    { links := ⟨nofun, nofun, nofun, nofun, nofun, nofun, nofun, nofun⟩
      watched := by
        refine ⟨Subscriptions.WellFormed.empty, fun {t w} => ?_⟩
        constructor
        · intro hw
          cases he : t.event <;> rw [Subscriptions.Listens, he] at hw <;> cases hw
        · intro hw
          cases hw with
          | exportUnmap he => cases he
          | childUnmap hi => cases hi
          | childSetParent hi => cases hi }
  registered :=
    { owns_iff := by
        intro c o
        have hn : (start d config handles l).1.ownership.owns c o = false :=
          Ownership.owns_empty c o
        rw [hn]
        cases o <;> simp [clientOf?, inertClient?, start]
      apart := by
        intro c o ho
        cases o <;> cases ho
      registry := by
        intro c o q ho
        cases o <;> cases ho
      fresh := by
        intro c o ho
        have hn : (start d config handles l).1.ownership.owns c o = false :=
          Ownership.owns_empty c o
        rw [hn] at ho
        cases ho }

theorem Aside.sound (h : x.Sound) (hxy : Aside x y) : y.Sound := by
  cases hxy <;> exact h.congr rfl rfl rfl rfl rfl rfl rfl rfl rfl

theorem Run.sound {ts : List (Transition L)} (h : x.Sound) (hrun : Run x ts y) : y.Sound := by
  induction hrun with
  | start => exact h
  | perform t _ hvalid ih => exact ih.perform hvalid
  | aside _ haside ih => exact haside.sound ih

theorem Reachable.sound (h : x.Reachable) : x.Sound := by
  obtain ⟨L, d, config, handles, l, ts, hrun⟩ := h
  exact hrun.sound (sound_start d config handles l)

/-! ## Runs that are computed -/

/-- Carries operations out one after the other, all against one shell. -/
def follow (view : ShellView) (patience : Nat) :
    List Operation → Exchange → Display L → Option (List (Transition L) × Exchange × Display L)
  | [], x, d => some ([], x, d)
  | op :: ops, x, d =>
    (x.perform view patience d op).bind fun (a, y, d') =>
      (follow view patience ops y d').map fun (ts, z) =>
        (⟨x, view, patience, d, op, a, y, d'⟩ :: ts, z)

theorem run_follow {view : ShellView} {patience : Nat} {ops : List Operation} {d d' : Display L}
    {ts : List (Transition L)} (hf : follow view patience ops x d = some (ts, y, d')) :
    Run x ts y := by
  induction ops generalizing x d ts with
  | nil =>
    cases hf
    exact .start
  | cons op ops ih =>
    obtain ⟨⟨a, z, d₁⟩, hp, hf⟩ := Option.bind_eq_some_iff.mp hf
    obtain ⟨⟨us, w⟩, hrest, heq⟩ := Option.map_eq_some_iff.mp hf
    cases heq
    have hfirst : Run x [⟨x, view, patience, d, op, a, z, d₁⟩] z :=
      .perform ⟨x, view, patience, d, op, a, z, d₁⟩ .start hp
    exact hfirst.append (ih hrest)

/-- A display with two clients, and an exchange on it that draws three handles. -/
def rehearsalStart : Exchange × Display Unit :=
  start (Display.empty.connect.2.connect.2) {}
    (.scripted [some ⟨"first"⟩, some ⟨"second"⟩, some ⟨"third"⟩] true) ()

/-- Carries operations out on that exchange, with a shell in which every surface is a toplevel. -/
def rehearse (ops : List Operation) : List (Transition Unit) × Exchange :=
  match follow { role := fun _ => some .toplevel } 1 ops rehearsalStart.1 rehearsalStart.2 with
  | some (ts, x, _) => (ts, x)
  | none => ([], rehearsalStart.1)

theorem run_rehearse (ops : List Operation) :
    Run rehearsalStart.1 (rehearse ops).1 (rehearse ops).2 := by
  unfold rehearse
  split
  · next hf => exact run_follow hf
  · exact .start

theorem reachable_rehearse (ops : List Operation) : (rehearse ops).2.Reachable :=
  ⟨Unit, _, _, _, _, _, run_rehearse ops⟩

/-- Client 1 exports a surface, client 2 imports it and makes another surface its child, and
then imports a handle that names nothing. -/
def sharing : List Operation :=
  [.bindExporter ⟨1⟩, .bindImporter ⟨2⟩, .exportSurface ⟨1⟩ ⟨5⟩, .importHandle ⟨2⟩ "first",
    .setParentOf ⟨⟨2⟩, 4⟩ ⟨7⟩, .importHandle ⟨2⟩ "nothing"]

end Exchange

end SurfaceExchange
