import Mathlib.Data.List.Basic
import Ych.Base.Runs

/-! An allocator seen from outside: extents of an address range that are handed out apart from
each other and given back. -/
namespace Ych.Allocations
open Runs

structure Extent where
  start : Nat
  size : Nat
  deriving DecidableEq

def Extent.stop (x : Extent) : Nat := x.start + x.size

def Extent.Apart (x y : Extent) : Prop := x.stop ≤ y.start ∨ y.stop ≤ x.start

variable {lo hi : Nat}

inductive Step (lo hi : Nat) : List Extent → List Extent → Prop where
  | acquire (live : List Extent) (x : Extent) (hlo : lo ≤ x.start) (hhi : x.stop ≤ hi)
      (hx : ∀ y ∈ live, x.Apart y) : Step lo hi live (x :: live)
  | release (live : List Extent) (x : Extent) : Step lo hi live (live.erase x)

/-- The live extents lie in the range and share no address. -/
structure Sound (lo hi : Nat) (live : List Extent) : Prop where
  within : ∀ x ∈ live, lo ≤ x.start ∧ x.stop ≤ hi
  apart : live.Pairwise Extent.Apart

theorem Sound.nil : Sound lo hi [] := ⟨fun _ hx => absurd hx List.not_mem_nil, List.Pairwise.nil⟩

theorem Step.sound {live live' : List Extent} (hstep : Step lo hi live live')
    (h : Sound lo hi live) : Sound lo hi live' := by
  cases hstep with
  | acquire x hlo hhi hx =>
    refine ⟨fun y hy => ?_, List.pairwise_cons.mpr ⟨hx, h.apart⟩⟩
    rcases List.mem_cons.mp hy with rfl | hy
    · exact ⟨hlo, hhi⟩
    · exact h.within y hy
  | release x =>
    exact ⟨fun y hy => h.within y (List.mem_of_mem_erase hy), h.apart.sublist List.erase_sublist⟩

theorem run_sound {live live' : List Extent} (hrun : Run (Step lo hi) live live')
    (h : Sound lo hi live) : Sound lo hi live' :=
  Run.invariant (fun _ _ hs hstep => hstep.sound hs) hrun h

end Ych.Allocations
