import Spreadsheet.Proofs.Sheet.Steps

/-
  Moves of a grid, one after another.

  Two moves in a row are the move that composes them (`Grid.moved_moved`), and a
  move that leaves every stored value where it is leaves the grid
  (`Grid.moved_eq_self`). A structural edit moves addresses along one coordinate,
  and what composes two of these composes what they do to the lines (`Along`).
-/

namespace Spreadsheet

namespace Grid

variable {β : Type} {f h : Address → Option Address}

theorem Injective.bind (hf : Injective f) (hh : Injective h) : Injective fun a => (f a).bind h := by
  intro a b c ha hb
  obtain ⟨a', ha, ha'⟩ := Option.bind_eq_some_iff.1 ha
  obtain ⟨b', hb, hb'⟩ := Option.bind_eq_some_iff.1 hb
  exact hf a b a' ha (hh a' b' c ha' hb' ▸ hb)

theorem moved_moved (hf : Injective f) (hh : Injective h) (g : Grid β) :
    moved h (moved f g) = moved (fun a => (f a).bind h) g := by
  apply Std.ExtTreeMap.ext_getElem?
  intro c
  by_cases hc : ∃ a, (f a).bind h = some c
  · obtain ⟨a, ha⟩ := hc
    obtain ⟨b, hb, hbc⟩ := Option.bind_eq_some_iff.1 ha
    rw [getElem?_moved hh _ hbc, getElem?_moved hf _ hb, getElem?_moved (hf.bind hh) _ ha]
  · have hnone : ∀ a, (f a).bind h ≠ some c := fun a ha => hc ⟨a, ha⟩
    rw [getElem?_moved_of_forall_ne g hnone]
    cases hv : (moved h (moved f g))[c]? with
    | none => rfl
    | some v =>
      obtain ⟨b, hbc, hb⟩ := exists_of_getElem?_moved hh hv
      obtain ⟨a, hab, -⟩ := exists_of_getElem?_moved hf hb
      exact absurd (Option.bind_eq_some_iff.2 ⟨b, hab, hbc⟩) (hnone a)

theorem moved_eq_self (hf : Injective f) {g : Grid β} (hself : ∀ a v, g[a]? = some v → f a = some a) :
    moved f g = g := by
  apply Std.ExtTreeMap.ext_getElem?
  intro a
  cases hv : g[a]? with
  | some v => rw [getElem?_moved hf g (hself a v hv), hv]
  | none =>
    cases hw : (moved f g)[a]? with
    | none => rfl
    | some w =>
      obtain ⟨b, hba, hb⟩ := exists_of_getElem?_moved hf hw
      rw [hself b w hb] at hba
      obtain rfl : b = a := Option.some.inj hba
      rw [hv] at hb
      cases hb

end Grid

theorem Sheet.moved_moved {f h : Address → Option Address} (hf : Grid.Injective f)
    (hh : Grid.Injective h) (s : Sheet) : (s.moved f).moved h = s.moved fun a => (f a).bind h := by
  simp only [Sheet.moved, Grid.moved_moved hf hh]

/-- Whether addresses are moved along one of their coordinates. -/
structure Along (map? : (UInt32 → Option UInt32) → Address → Option Address)
    (line : Address → UInt32) : Prop where
  injective : ∀ {f}, (∀ x y z, f x = some z → f y = some z → x = y) → Grid.Injective (map? f)
  stays : ∀ {f a}, f (line a) = some (line a) → map? f a = some a
  bind : ∀ f h a, (map? f a).bind (map? h) = map? (fun x => (f x).bind h) a

theorem along_row : Along Address.mapRow? Address.row where
  injective := mapRow_injective
  stays h := by simp [Address.mapRow?, h]
  bind f h a := by cases hrow : f a.row <;> simp [Address.mapRow?, hrow]

theorem along_col : Along Address.mapCol? Address.col where
  injective := mapCol_injective
  stays h := by simp [Address.mapCol?, h]
  bind f h a := by cases hcol : f a.col <;> simp [Address.mapCol?, hcol]

/-- Where a line is moved there and back, so is an address on it. -/
theorem Along.back {map? : (UInt32 → Option UInt32) → Address → Option Address} {line : Address → UInt32}
    (hway : Along map? line) {f h : UInt32 → Option UInt32} {a : Address}
    (hline : (f (line a)).bind h = some (line a)) : (map? f a).bind (map? h) = some a := by
  rw [hway.bind]
  exact hway.stays hline

end Spreadsheet
