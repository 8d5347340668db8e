import Playspace.Citbrains.Message
import Playspace.Lib.Motion
import Playspace.Visibility.Graph

/-!
# Changing between frames

The member functions of `Pos2D` that take a pose from the field's coordinates to
a robot's and back, and the distance of two positions. They go by way of polar
coordinates, so the poses are over the reals and the arithmetic is exact.
-/

namespace Playspace.Citbrains.Pos2D

open Playspace.Visibility (atan2)

noncomputable def GlobalToLocal (p selfPos : Pos2D ℝ) : Pos2D ℝ :=
  let dx := p.x - selfPos.x
  let dy := p.y - selfPos.y
  let r := Real.sqrt (dx * dx + dy * dy)
  let phi := atan2 dy dx
  { x := r * Real.cos (phi - selfPos.th)
    y := r * Real.sin (phi - selfPos.th)
    th := p.th - selfPos.th }

noncomputable def LocalToGlobal (p selfPos : Pos2D ℝ) : Pos2D ℝ :=
  let r := Real.sqrt (p.x * p.x + p.y * p.y)
  let phi := atan2 p.y p.x
  { x := selfPos.x + r * Real.cos (selfPos.th + phi)
    y := selfPos.y + r * Real.sin (selfPos.th + phi)
    th := selfPos.th + p.th }

noncomputable def distanceTo (p pos : Pos2D ℝ) : ℝ :=
  Real.sqrt ((pos.x - p.x) * (pos.x - p.x) + (pos.y - p.y) * (pos.y - p.y))

end Playspace.Citbrains.Pos2D
