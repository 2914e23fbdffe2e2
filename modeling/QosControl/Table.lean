/-! # Tables

Finite maps listed in ascending order of their keys. The order is part of the
type, so a table is determined by what it looks up, and every pass over it visits
the keys in one order.
-/
namespace QosControl

/-- The laws of a strict total order on keys. -/
class Key (κ : Type) [LT κ] : Prop where
  irrefl : ∀ a : κ, ¬ a < a
  trans : ∀ {a b c : κ}, a < b → b < c → a < c
  connected : ∀ {a b : κ}, ¬ a < b → a ≠ b → b < a

instance : Key Nat where
  irrefl := Nat.lt_irrefl
  trans := Nat.lt_trans
  connected h hne := by omega

instance : Key String where
  irrefl := String.lt_irrefl
  trans := String.lt_trans
  connected {a b} h hne := by
    by_cases hl : b < a
    · exact hl
    · exact absurd (String.le_antisymm (String.not_lt.1 hl) (String.not_lt.1 h)) hne

/-- A finite map as its list of entries in ascending order of keys. -/
structure Table (κ α : Type) [LT κ] where
  entries : List (κ × α)
  ascending : entries.Pairwise fun a b => a.1 < b.1

namespace Table
variable {κ α β : Type} [LT κ]

instance [DecidableEq κ] [DecidableEq α] : DecidableEq (Table κ α) := fun s t =>
  decidable_of_iff (s.entries = t.entries) (by cases s; cases t; simp)

def empty : Table κ α := ⟨[], .nil⟩

instance : Inhabited (Table κ α) := ⟨empty⟩

def keys (t : Table κ α) : List κ := t.entries.map (·.1)

def values (t : Table κ α) : List α := t.entries.map (·.2)

def isEmpty (t : Table κ α) : Bool := t.entries.isEmpty

section Lookup
variable [DecidableEq κ]

def get? (t : Table κ α) (k : κ) : Option α := (t.entries.find? fun e => e.1 = k).map (·.2)

def contains (t : Table κ α) (k : κ) : Bool := (t.get? k).isSome

end Lookup

section Placing
variable [DecidableEq κ] [DecidableLT κ]

/-- Puts an entry in its place; an entry of the same key is replaced. -/
def place (k : κ) (a : α) : List (κ × α) → List (κ × α)
  | [] => [(k, a)]
  | e :: es => if k < e.1 then (k, a) :: e :: es else if k = e.1 then (k, a) :: es else e :: place k a es

theorem fst_of_mem_place {k : κ} {a : α} {es : List (κ × α)} {e : κ × α} (h : e ∈ place k a es) :
    e.1 = k ∨ e ∈ es := by
  induction es with
  | nil => simp only [place, List.mem_singleton] at h; exact .inl (h ▸ rfl)
  | cons d ds ih =>
    simp only [place] at h
    split at h
    · rcases List.mem_cons.1 h with rfl | h
      · exact .inl rfl
      · exact .inr h
    · split at h
      · rcases List.mem_cons.1 h with rfl | h
        · exact .inl rfl
        · exact .inr (List.mem_cons_of_mem _ h)
      · rcases List.mem_cons.1 h with rfl | h
        · exact .inr List.mem_cons_self
        · exact (ih h).imp_right (List.mem_cons_of_mem _)

theorem ascending_place [Key κ] (k : κ) (a : α) {es : List (κ × α)}
    (h : es.Pairwise fun a b => a.1 < b.1) : (place k a es).Pairwise fun a b => a.1 < b.1 := by
  induction es with
  | nil => exact List.pairwise_singleton _ _
  | cons e es ih =>
    obtain ⟨he, hes⟩ := List.pairwise_cons.1 h
    simp only [place]
    split
    next hk =>
      refine List.pairwise_cons.2 ⟨fun d hd => ?_, h⟩
      rcases List.mem_cons.1 hd with rfl | hd
      · exact hk
      · exact Key.trans hk (he d hd)
    next hk =>
      split
      next heq => exact List.pairwise_cons.2 ⟨fun d hd => heq ▸ he d hd, hes⟩
      next hne =>
        refine List.pairwise_cons.2 ⟨fun d hd => ?_, ih hes⟩
        rcases fst_of_mem_place hd with hd | hd
        · exact hd ▸ Key.connected hk hne
        · exact he d hd

def insert [Key κ] (t : Table κ α) (k : κ) (a : α) : Table κ α :=
  ⟨place k a t.entries, ascending_place k a t.ascending⟩

/-- The table of a list of entries, the last of each key. -/
def ofList [Key κ] (es : List (κ × α)) : Table κ α := es.foldl (fun t e => t.insert e.1 e.2) empty

/-- The table of a list of named values, the last of each name. -/
def ofNamed [Key κ] (name : α → κ) (as : List α) : Table κ α := ofList (as.map fun a => (name a, a))

end Placing

/-- Changes each value, knowing its key. -/
def mapEntries (t : Table κ α) (f : κ → α → β) : Table κ β :=
  ⟨t.entries.map fun e => (e.1, f e.1 e.2), List.pairwise_map.2 t.ascending⟩

end Table

/-- The distinct members of a list of keys, in ascending order. -/
def sortedKeys {κ : Type} [LT κ] [DecidableEq κ] [DecidableLT κ] [Key κ] (ks : List κ) : List κ :=
  (Table.ofList (ks.map fun k => (k, ()))).keys

end QosControl
