import Mathlib.Algebra.Group.Basic
import Mathlib.Algebra.Order.Group.Defs
import Mathlib.Order.Lattice

/-!
# Tilings of half-open intervals

A list of pieces tiles the interval from `start` to `stop` when the first piece begins at `start`,
every piece has positive length and begins where its predecessor ended, and the last piece ends at
`stop`.
-/

namespace Chronicle.Library.Tiling

variable {α T : Type*} [LinearOrder T]

/-- The pieces follow one another without gap or overlap from `start` to `stop`. -/
def Tiles (lower upper : α → T) : T → List α → T → Prop
  | start, [], stop => start = stop
  | start, piece :: pieces, stop =>
      lower piece = start ∧ lower piece < upper piece ∧
        Tiles lower upper (upper piece) pieces stop

/-- The piece holds the instant. -/
def Holds (lower upper : α → T) (piece : α) (t : T) : Prop := lower piece ≤ t ∧ t < upper piece

variable {lower upper : α → T} {start middle stop : T} {pieces : List α}

@[simp]
theorem tiles_nil : Tiles lower upper start [] stop ↔ start = stop := Iff.rfl

@[simp]
theorem tiles_cons {piece : α} :
    Tiles lower upper start (piece :: pieces) stop ↔
      lower piece = start ∧ lower piece < upper piece ∧
        Tiles lower upper (upper piece) pieces stop := Iff.rfl

/-- Tilings of adjacent intervals join. -/
theorem Tiles.append {later : List α} (hfirst : Tiles lower upper start pieces middle)
    (hlater : Tiles lower upper middle later stop) :
    Tiles lower upper start (pieces ++ later) stop := by
  induction pieces generalizing start with
  | nil => exact hfirst ▸ hlater
  | cons piece pieces ih => exact ⟨hfirst.1, hfirst.2.1, ih hfirst.2.2⟩

/-- A tiling runs forward. -/
theorem Tiles.le (h : Tiles lower upper start pieces stop) : start ≤ stop := by
  induction pieces generalizing start with
  | nil => exact le_of_eq h
  | cons piece pieces ih => exact h.1 ▸ (h.2.1.le.trans (ih h.2.2))

/-- Every piece is nonempty and lies inside the tiled interval. -/
theorem Tiles.bounds (h : Tiles lower upper start pieces stop) {piece : α}
    (hpiece : piece ∈ pieces) :
    start ≤ lower piece ∧ lower piece < upper piece ∧ upper piece ≤ stop := by
  induction pieces generalizing start with
  | nil => exact absurd hpiece List.not_mem_nil
  | cons first pieces ih =>
      rcases List.mem_cons.mp hpiece with rfl | hpiece
      · exact ⟨h.1.ge, h.2.1, h.2.2.le⟩
      · obtain ⟨hlower, hpositive, hupper⟩ := ih h.2.2 hpiece
        exact ⟨h.1 ▸ h.2.1.le.trans hlower, hpositive, hupper⟩

/-- Every instant of the tiled interval lies in some piece. -/
theorem Tiles.exists_holds (h : Tiles lower upper start pieces stop) {t : T} (hstart : start ≤ t)
    (hstop : t < stop) : ∃ piece ∈ pieces, Holds lower upper piece t := by
  induction pieces generalizing start with
  | nil => exact absurd (h ▸ hstart) (not_le.mpr hstop)
  | cons first pieces ih =>
      rcases lt_or_ge t (upper first) with hlt | hge
      · exact ⟨first, List.mem_cons_self, h.1.le.trans hstart, hlt⟩
      · obtain ⟨piece, hpiece, hholds⟩ := ih h.2.2 hge
        exact ⟨piece, List.mem_cons_of_mem _ hpiece, hholds⟩

/-- At most one piece holds an instant. -/
theorem Tiles.eq_of_holds (h : Tiles lower upper start pieces stop) {first second : α} {t : T}
    (hfirst : first ∈ pieces) (hsecond : second ∈ pieces) (ht : Holds lower upper first t)
    (ht' : Holds lower upper second t) : first = second := by
  induction pieces generalizing start with
  | nil => exact absurd hfirst List.not_mem_nil
  | cons piece pieces ih =>
      rcases List.mem_cons.mp hfirst with hhead | hrest <;>
        rcases List.mem_cons.mp hsecond with hhead' | hrest'
      · rw [hhead, hhead']
      · rw [hhead] at ht
        exact absurd (ht.2.trans_le ((h.2.2.bounds hrest').1.trans ht'.1)) (lt_irrefl t)
      · rw [hhead'] at ht'
        exact absurd (ht'.2.trans_le ((h.2.2.bounds hrest).1.trans ht.1)) (lt_irrefl t)
      · exact ih h.2.2 hrest hrest'

/-- Only the empty list tiles an interval without length. -/
theorem Tiles.eq_nil (h : Tiles lower upper start pieces start) : pieces = [] := by
  cases pieces with
  | nil => rfl
  | cons piece pieces =>
      obtain ⟨hlower, hpositive, hupper⟩ := h.bounds List.mem_cons_self
      exact absurd (hlower.trans_lt (hpositive.trans_le hupper)) (lt_irrefl start)

/-- The pieces of a tiling follow one another. -/
theorem Tiles.pairwise_apart (h : Tiles lower upper start pieces stop) :
    pieces.Pairwise fun earlier later => upper earlier ≤ lower later := by
  induction pieces generalizing start with
  | nil => exact List.Pairwise.nil
  | cons first pieces ih =>
      exact List.pairwise_cons.mpr ⟨fun piece hpiece => (h.2.2.bounds hpiece).1, ih h.2.2⟩

/-- A tiling is in strictly ascending order of the lower bounds. -/
theorem Tiles.pairwise_lower (h : Tiles lower upper start pieces stop) :
    pieces.Pairwise fun earlier later => lower earlier < lower later := by
  induction pieces generalizing start with
  | nil => exact List.Pairwise.nil
  | cons first pieces ih =>
      exact List.pairwise_cons.mpr
        ⟨fun piece hpiece => h.2.1.trans_le (h.2.2.bounds hpiece).1, ih h.2.2⟩

/-- A tiling can be read off from what it is a map of. -/
theorem tiles_map {β : Type*} {f : β → α} {l : List β} :
    Tiles lower upper start (l.map f) stop ↔
      Tiles (fun x => lower (f x)) (fun x => upper (f x)) start l stop := by
  induction l generalizing start with
  | nil => rfl
  | cons piece l ih => rw [List.map_cons, tiles_cons, tiles_cons, ih]

/-- The lengths of the pieces add up to the length of the interval. -/
theorem Tiles.sum_lengths {G : Type*} [LinearOrder G] [AddCommGroup G] {lower upper : α → G}
    {start stop : G} {pieces : List α} (h : Tiles lower upper start pieces stop) :
    (pieces.map fun piece => upper piece - lower piece).sum = stop - start := by
  induction pieces generalizing start with
  | nil => rw [tiles_nil.mp h, List.map_nil, List.sum_nil, sub_self]
  | cons piece pieces ih =>
      rw [List.map_cons, List.sum_cons, ih h.2.2, h.1, sub_add_sub_cancel']

section Cuts

variable {cuts : List T}

/-- Cuts in ascending order inside an interval tile it by neighbouring pairs. -/
theorem tiles_neighbours (h : (start :: (cuts ++ [stop])).Pairwise (· < ·)) :
    Tiles Prod.fst Prod.snd start ((start :: (cuts ++ [stop])).zip (cuts ++ [stop])) stop := by
  induction cuts generalizing start with
  | nil =>
      have hlt : start < stop := by simpa using h
      exact ⟨rfl, hlt, rfl⟩
  | cons cut cuts ih =>
      obtain ⟨hfirst, hrest⟩ := List.pairwise_cons.mp h
      exact ⟨rfl, hfirst cut List.mem_cons_self, ih hrest⟩

/-- No cut lies inside a piece. -/
theorem le_or_le_of_mem_neighbours (h : (start :: (cuts ++ [stop])).Pairwise (· < ·)) {cut : T}
    (hcut : cut ∈ cuts) {piece : T × T}
    (hpiece : piece ∈ (start :: (cuts ++ [stop])).zip (cuts ++ [stop])) :
    cut ≤ piece.1 ∨ piece.2 ≤ cut := by
  induction cuts generalizing start with
  | nil => exact absurd hcut List.not_mem_nil
  | cons first cuts ih =>
      obtain ⟨-, hrest⟩ := List.pairwise_cons.mp h
      rcases List.mem_cons.mp hpiece with rfl | hpiece
      · right
        rcases List.mem_cons.mp hcut with rfl | hcut
        · exact le_rfl
        · exact (List.rel_of_pairwise_cons hrest (List.mem_append_left _ hcut)).le
      · rcases List.mem_cons.mp hcut with rfl | hcut
        · exact .inl ((tiles_neighbours hrest).bounds hpiece).1
        · exact ih hrest hcut hpiece

end Cuts

end Chronicle.Library.Tiling
