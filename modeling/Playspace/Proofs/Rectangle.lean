import Playspace.Visibility.Graph
import Playspace.Lib.Plane

/-!
# Where `addRectangle` puts its square

The function adds both coordinates of `centre` to both coordinates of every
point. The four points are a square of the side and the turn it was asked for,
always, and the square stands around `(x + y, x + y)`. A square has one centre,
so it is the one asked for only where `x + y` is both `x` and `y`.
-/

namespace Playspace.Visibility

open Playspace.Lib

/-- The sign tables name the corners row by row; around the square the last two
change places. -/
theorem perm_last_two {α : Type*} (p q u v : α) : List.Perm [p, q, u, v] [p, q, v, u] :=
  ((List.Perm.swap v u []).cons q).cons p

variable {K : Type*} [Field K]

/-- `after` has the points of `before` and, behind them, the corners of a square. -/
def AddsSquare (c s : K) (centre : GraphPoint K) (length : K) (before after : Shape K) :
    Prop :=
  ∃ added, after.points = before.points ++ added ∧ RotatedSquare c s centre length added

theorem AddsSquare.centre_unique {c s length length' : K} {centre centre' : GraphPoint K}
    {before after : Shape K} (h : AddsSquare c s centre length before after)
    (h' : AddsSquare c s centre' length' before after) : centre = centre' := by
  obtain ⟨added, hpoints, hsquare⟩ := h
  obtain ⟨added', hpoints', hsquare'⟩ := h'
  rw [hpoints] at hpoints'
  obtain rfl := List.append_cancel_left hpoints'
  exact hsquare.centre_unique hsquare'

variable [CharZero K]

theorem addsSquare_addRectangle {cos sin : K → K} {rad : K}
    (h : cos rad ^ 2 + sin rad ^ 2 = 1) (s : Shape K) (x y length : K) :
    AddsSquare (cos rad) (sin rad) (x + y, x + y) length s
      (s.addRectangle cos sin (x, y) length rad) := by
  refine ⟨_, rfl, RotatedSquare.of_corners h ?_⟩
  refine (perm_last_two _ _ _ _).trans (List.Perm.of_eq ?_)
  simp only [squareCorners, rotateAbout, List.map_cons, List.map_nil]
  push_cast
  ring_nf

/-- The square is the one asked for around the origin, and nowhere else. -/
theorem addRectangle_square_iff (cos sin : K → K) (rad : K)
    (h : cos rad ^ 2 + sin rad ^ 2 = 1) (s : Shape K) (x y length : K) :
    AddsSquare (cos rad) (sin rad) (x, y) length s
        (s.addRectangle cos sin (x, y) length rad) ↔
      x = 0 ∧ y = 0 := by
  have hadded := addsSquare_addRectangle h s x y length
  constructor
  · intro hasked
    have hcentre := hasked.centre_unique hadded
    rw [Prod.mk.injEq] at hcentre
    obtain ⟨hx, hy⟩ := hcentre
    exact ⟨by linear_combination -hy, by linear_combination -hx⟩
  · rintro ⟨rfl, rfl⟩
    rw [add_zero] at hadded
    exact hadded

/-- Around the origin, by the angle of a triangle with sides 3, 4 and 5. -/
theorem addRectangle_square_at_origin :
    AddsSquare (3 / 5 : ℚ) (4 / 5) (0, 0) 2 { points := [(7, 7)] }
      (Shape.addRectangle (fun _ => 3 / 5) (fun _ => 4 / 5) { points := [(7, 7)] } (0, 0) 2
        1) :=
  (addRectangle_square_iff (fun _ => 3 / 5) (fun _ => 4 / 5) 1 (by norm_num) _ 0 0 2).mpr
    ⟨rfl, rfl⟩

/-- The rectangle that `main` draws, unturned: asked for around (200, 300), it
stands around (500, 500). -/
theorem addRectangle_square_displaced :
    ¬ AddsSquare (1 : ℚ) 0 (200, 300) 100 {}
        (Shape.addRectangle (fun _ => 1) (fun _ => 0) {} (200, 300) 100 0) ∧
      AddsSquare (1 : ℚ) 0 (500, 500) 100 {}
        (Shape.addRectangle (fun _ => 1) (fun _ => 0) {} (200, 300) 100 0) := by
  have hadded : AddsSquare (1 : ℚ) 0 (200 + 300, 200 + 300) 100 {}
      (Shape.addRectangle (fun _ => 1) (fun _ => 0) {} (200, 300) 100 0) :=
    addsSquare_addRectangle (by norm_num) {} 200 300 100
  have hsum : (200 : ℚ) + 300 = 500 := by norm_num
  rw [hsum] at hadded
  refine ⟨fun hasked => ?_, hadded⟩
  have hcentre := hasked.centre_unique hadded
  rw [Prod.mk.injEq] at hcentre
  exact absurd hcentre.1 (by norm_num)

end Playspace.Visibility
