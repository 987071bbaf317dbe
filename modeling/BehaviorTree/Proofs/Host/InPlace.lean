import BehaviorTree.Host

/-! Operations that work on a state in place. What one of them has written stays written when it
fails, so a failure leaves the state as it was found only by the order in which things are done:
all that may fail comes before all that writes, or what is written is put back. -/
namespace BehaviorTree

universe u v w x

abbrev InPlace (σ : Type u) (ε : Type v) (α : Type w) := σ → Option (Except ε α × σ)

namespace InPlace
variable {σ τ : Type u} {ε δ : Type v} {α : Type w} {β γ : Type x}

def done (a : α) : InPlace σ ε α := fun s => some (.ok a, s)

def fail (e : ε) : InPlace σ ε α := fun s => some (.error e, s)

def read (f : σ → β) (next : β → InPlace σ ε α) : InPlace σ ε α := fun s => next (f s) s

def write (f : σ → σ) (next : InPlace σ ε α) : InPlace σ ε α := fun s => next (f s)

def refuse (condition : Prop) [Decidable condition] (e : ε) (next : InPlace σ ε α) :
    InPlace σ ε α := if condition then fail e else next

def need (found : Option β) (e : ε) (next : β → InPlace σ ε α) : InPlace σ ε α :=
  match found with
  | none => fail e
  | some b => next b

def forbid (found : Option β) (e : β → ε) (next : InPlace σ ε α) : InPlace σ ε α :=
  match found with
  | none => next
  | some b => fail (e b)

def andThen (first : InPlace σ ε α) (next : α → InPlace σ ε γ) : InPlace σ ε γ := fun s =>
  match first s with
  | none => none
  | some (.error e, middle) => some (.error e, middle)
  | some (.ok a, middle) => next a middle

/- Works on a part of the state. The part is put back as it is left, also after a failure. -/
def within (part : σ → Except δ τ) (put : τ → σ → σ) (tell : ε → δ) (inner : InPlace τ ε α) :
    InPlace σ δ α := fun s =>
  match part s with
  | .error d => some (.error d, s)
  | .ok t => (inner t).map fun (result, left) => (result.mapError tell, put left s)

def Sure (op : InPlace σ ε α) : Prop := ∀ s e last, op s ≠ some (.error e, last)

def Clean (op : InPlace σ ε α) : Prop := ∀ s e last, op s = some (.error e, last) → last = s

namespace Sure

theorem done (a : α) : Sure (done a : InPlace σ ε α) := fun _ _ _ => nofun

theorem read {f : σ → β} {next : β → InPlace σ ε α} (sure : ∀ b, Sure (next b)) :
    Sure (read f next) := fun s => sure (f s) s

theorem write {f : σ → σ} {next : InPlace σ ε α} (sure : Sure next) : Sure (write f next) :=
  fun s => sure (f s)

end Sure

namespace Clean

theorem ofSure {op : InPlace σ ε α} (sure : Sure op) : Clean op :=
  fun s e last failed => absurd failed (sure s e last)

theorem fail (e : ε) : Clean (fail e : InPlace σ ε α) := by
  intro s e last failed
  cases failed
  rfl

theorem read {f : σ → β} {next : β → InPlace σ ε α} (clean : ∀ b, Clean (next b)) :
    Clean (read f next) := fun s => clean (f s) s

theorem refuse {condition : Prop} [Decidable condition] {e : ε} {next : InPlace σ ε α}
    (clean : Clean next) : Clean (refuse condition e next) := by
  unfold InPlace.refuse
  split
  · exact fail e
  · exact clean

theorem need {found : Option β} {e : ε} {next : β → InPlace σ ε α}
    (clean : ∀ b, Clean (next b)) : Clean (need found e next) := by
  cases found with
  | none => exact fail e
  | some b => exact clean b

theorem forbid {found : Option β} {e : β → ε} {next : InPlace σ ε α} (clean : Clean next) :
    Clean (forbid found e next) := by
  cases found with
  | none => exact clean
  | some b => exact fail (e b)

-- Once something may have been written, only what never fails may follow.
theorem andThen {first : InPlace σ ε α} {next : α → InPlace σ ε γ} (clean : Clean first)
    (sure : ∀ a, Sure (next a)) : Clean (andThen first next) := by
  intro s e last failed
  unfold InPlace.andThen at failed
  split at failed
  · contradiction
  · rename_i gone
    cases failed
    exact clean s e last gone
  · rename_i a middle _
    exact absurd failed (sure a middle e last)

-- A write before the check does no harm where it changes nothing if the check fails.
theorem needAfter {found : σ → Option β} {f : σ → σ} {e : ε} {next : β → InPlace σ ε α}
    (same : ∀ s, found s = none → f s = s) (sure : ∀ b, Sure (next b)) :
    Clean (InPlace.read found fun b => InPlace.write f (InPlace.need b e next)) := by
  intro s e last failed
  simp only [InPlace.read, InPlace.write] at failed
  cases here : found s with
  | none =>
    rw [here] at failed
    cases failed
    exact same s here
  | some b =>
    rw [here] at failed
    exact absurd failed (sure b (f s) e last)

theorem within {part : σ → Except δ τ} {put : τ → σ → σ} {tell : ε → δ} {inner : InPlace τ ε α}
    (same : ∀ s t, part s = .ok t → put t s = s) (clean : Clean inner) :
    Clean (within part put tell inner) := by
  intro s d last failed
  unfold InPlace.within at failed
  split at failed
  · cases failed
    rfl
  · rename_i t here
    obtain ⟨⟨result, left⟩, gone, told⟩ := Option.map_eq_some_iff.mp failed
    cases result with
    | ok a => cases told
    | error e =>
      cases told
      rw [clean t e left gone]
      exact same s t here

end Clean

def Yields (op : InPlace σ ε α) (f : σ → Except ε (α × σ)) (s : σ) : Prop :=
  ∃ result last, op s = some (result, last) ∧ f s = result.map fun a => (a, last)

namespace Yields
variable {f : σ → Except ε (α × σ)} {s : σ}

theorem failing {op : InPlace σ ε α} {e : ε} {last : σ} (fails : op s = some (.error e, last))
    (same : f s = .error e) : op.Yields f s := ⟨_, _, fails, same⟩

theorem ending {op : InPlace σ ε α} {a : α} {last : σ} (ends : op s = some (.ok a, last))
    (same : f s = .ok (a, last)) : op.Yields f s := ⟨_, _, ends, same⟩

theorem read {g : σ → β} {next : β → InPlace σ ε α} (later : (next (g s)).Yields f s) :
    (read g next).Yields f s := later

theorem write {g : σ → σ} {next : InPlace σ ε α} (later : next.Yields (fun _ => f s) (g s)) :
    (write g next).Yields f s := later

theorem refuse {condition : Prop} [Decidable condition] {e : ε} {next : InPlace σ ε α}
    (refused : condition → f s = .error e) (later : ¬condition → next.Yields f s) :
    (refuse condition e next).Yields f s := by
  unfold InPlace.refuse
  split
  · rename_i met
    exact failing rfl (refused met)
  · rename_i unmet
    exact later unmet

theorem need {found : Option β} {e : ε} {next : β → InPlace σ ε α}
    (missing : found = none → f s = .error e)
    (later : ∀ b, found = some b → (next b).Yields f s) : (need found e next).Yields f s := by
  cases found with
  | none => exact failing rfl (missing rfl)
  | some b => exact later b rfl

theorem forbid {found : Option β} {e : β → ε} {next : InPlace σ ε α}
    (forbidden : ∀ b, found = some b → f s = .error (e b))
    (later : found = none → next.Yields f s) : (forbid found e next).Yields f s := by
  cases found with
  | none => exact later rfl
  | some b => exact failing rfl (forbidden b rfl)

theorem andThen {g : σ → Except ε (α × σ)} {f : σ → Except ε (γ × σ)} {first : InPlace σ ε α}
    {next : α → InPlace σ ε γ} (yields : first.Yields g s)
    (failed : ∀ e, g s = .error e → f s = .error e)
    (later : ∀ a middle, g s = .ok (a, middle) → (next a).Yields (fun _ => f s) middle) :
    (andThen first next).Yields f s := by
  obtain ⟨result, middle, gone, same⟩ := yields
  cases result with
  | error e => exact failing (by rw [InPlace.andThen, gone]) (failed e same)
  | ok a =>
    obtain ⟨result, last, ok, told⟩ := later a middle same
    exact ⟨result, last, by rw [InPlace.andThen, gone]; exact ok, told⟩

theorem within {part : σ → Except δ τ} {put : τ → σ → σ} {tell : ε → δ} {inner : InPlace τ ε α}
    {g : τ → Except ε (α × τ)} {f : σ → Except δ (α × σ)} {t : τ} (here : part s = .ok t)
    (yields : inner.Yields g t)
    (same : f s = match g t with
      | .ok (a, left) => .ok (a, put left s)
      | .error e => .error (tell e)) : (within part put tell inner).Yields f s := by
  obtain ⟨result, left, ok, told⟩ := yields
  refine ⟨result.mapError tell, put left s, ?_, ?_⟩
  · simp [InPlace.within, here, ok]
  · rw [same, told]
    cases result <;> rfl

end Yields

theorem Clean.settled {op : InPlace σ ε α} {f : σ → Except ε (α × σ)} {s : σ} (clean : op.Clean)
    (yields : op.Yields f s) :
    op s = some (match f s with
      | .ok (a, last) => (.ok a, last)
      | .error e => (.error e, s)) := by
  obtain ⟨result, last, ok, same⟩ := yields
  rw [same, ok]
  cases result with
  | ok a => rfl
  | error e => rw [clean s e last ok]; rfl

end InPlace
end BehaviorTree
