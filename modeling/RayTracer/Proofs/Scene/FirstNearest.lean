import Mathlib
import RayTracer.Proofs.Binary.Ranks
import RayTracer.Proofs.Scene.NearestHit

/-! The hit that a ray sees in binary64 is the nearest one, and of several at one parameter that of the shape
added first. Hits are compared one after the other, which finds a least parameter only because none of them
is not a number: such a one would be kept for ever or never be taken. -/

namespace RayTracer.World

section Minimum

variable {α : Type} [Scalar α]

theorem foldl_nearer_eq_none {hits : List (Hit α)} : hits.foldl nearer none = none ↔ hits = [] := by
  induction hits using List.reverseRecOn with
  | nil => simp
  | append_singleton hits last ih =>
      rw [List.foldl_append]
      simp only [List.foldl_cons, List.foldl_nil, nearer]
      split
      · simp
      · split <;> simp_all

/-- The running minimum, where parameters compare as ranks in a linear order do. What is kept lies strictly
before all that came earlier and not behind anything that came later. -/
theorem split_of_foldl_nearer {ρ : Type} [LinearOrder ρ] {rank : α → ρ} {hits : List (Hit α)} {best : Hit α}
    (hRank : ∀ a ∈ hits, ∀ b ∈ hits, a.t < b.t ↔ rank a.t < rank b.t)
    (h : hits.foldl nearer none = some best) :
    ∃ before after, hits = before ++ best :: after ∧ (∀ hit ∈ before, rank best.t < rank hit.t) ∧
      ∀ hit ∈ after, rank best.t ≤ rank hit.t := by
  induction hits using List.reverseRecOn generalizing best with
  | nil => cases h
  | append_singleton hits last ih =>
      rw [List.foldl_append, List.foldl_cons, List.foldl_nil] at h
      cases hKnown : hits.foldl nearer none with
      | none =>
          obtain rfl := foldl_nearer_eq_none.mp hKnown
          obtain rfl := Option.some.inj h
          exact ⟨[], [], rfl, by simp, by simp⟩
      | some known =>
          obtain ⟨before, after, hSplit, hBefore, hAfter⟩ := ih
            (fun a ha b hb => hRank a (List.mem_append_left _ ha) b (List.mem_append_left _ hb)) hKnown
          have hKnownMem : known ∈ hits ++ [last] := by simp [hSplit]
          have hNearer : last.t < known.t ↔ rank last.t < rank known.t :=
            hRank last (by simp) known hKnownMem
          rw [hKnown, nearer] at h
          -- The last hit is compared with the best so far only; that one stands for all before it.
          by_cases hLess : last.t < known.t
          · rw [if_pos hLess] at h
            obtain rfl := Option.some.inj h
            have hLast := hNearer.mp hLess
            refine ⟨hits, [], rfl, fun hit hMem => ?_, by simp⟩
            rw [hSplit] at hMem
            rcases List.mem_append.mp hMem with hEarlier | hRest
            · exact hLast.trans (hBefore hit hEarlier)
            · rcases List.mem_cons.mp hRest with rfl | hLater
              · exact hLast
              · exact hLast.trans_le (hAfter hit hLater)
          · rw [if_neg hLess] at h
            obtain rfl := Option.some.inj h
            refine ⟨before, after ++ [last], by rw [hSplit]; simp, hBefore, fun hit hMem => ?_⟩
            rcases List.mem_append.mp hMem with hLater | hEnd
            · exact hAfter hit hLater
            · rw [List.mem_singleton.mp hEnd]
              exact not_lt.mp fun hLast => hLess (hNearer.mpr hLast)

/-- A ray misses a world when it misses all of its shapes. -/
theorem intersect?_eq_none_iff {world : World α} {ray : Ray α} :
    world.intersect? ray = none ↔ ∀ shape ∈ world.shapes, shape.intersect? ray = none := by
  rw [intersect?, Option.map_eq_none_iff, nearestHit?, foldl_nearer_eq_none, List.filterMap_eq_nil_iff]

end Minimum

/-- A hit is one of least parameter, and the first of these in the order of the shapes; only its normal has
been given unit length. -/
def IsFirstNearest (shapes : List (Shape Float)) (ray : Ray Float) (hit : Hit Float) : Prop :=
  ∃ before shape after met, shapes = before ++ shape :: after ∧ shape.intersect? ray = some met ∧
    hit = { met with normal := met.normal.normalized } ∧
    (∀ earlier ∈ before, ∀ other, earlier.intersect? ray = some other → met.t < other.t) ∧
    ∀ later ∈ after, ∀ other, later.intersect? ray = some other → met.t ≤ other.t

variable {ray : Ray Float}

/-- The interval keeps out what is not a number, since such a one does not exceed the lower end. -/
theorem isNaN_of_surrounds {range : Interval Float} {t : Float} (h : range.surrounds t = true) :
    t.isNaN = false := by
  rw [Interval.surrounds, Bool.and_eq_true, decide_eq_true_eq] at h
  exact (Binary.lt_iff_rank.mp h.1).2.1

/-- A hit is at a parameter that is a number. -/
theorem isNaN_of_intersect? {shape : Shape Float} {hit : Hit Float}
    (h : shape.intersect? ray = some hit) : hit.t.isNaN = false :=
  isNaN_of_surrounds (Shape.surrounds_of_intersect? h)

/-- What a ray sees is the first of the nearest hits. -/
theorem isFirstNearest_of_intersect? {world : World Float} {hit : Hit Float}
    (h : world.intersect? ray = some hit) : IsFirstNearest world.shapes ray hit := by
  obtain ⟨met, hNearest, rfl⟩ := Option.map_eq_some_iff.mp h
  have hNumber (other : Hit Float) (hOther : other ∈ world.shapes.filterMap (·.intersect? ray)) :
      other.t.isNaN = false := by
    obtain ⟨shape, -, hMet⟩ := List.mem_filterMap.mp hOther
    exact isNaN_of_intersect? hMet
  have hRank (a : Hit Float) (ha : a ∈ world.shapes.filterMap (·.intersect? ray)) (b : Hit Float)
      (hb : b ∈ world.shapes.filterMap (·.intersect? ray)) :
      a.t < b.t ↔ Binary.rank a.t < Binary.rank b.t := by
    rw [Binary.lt_iff_rank]
    simp only [hNumber a ha, hNumber b hb, true_and]
  obtain ⟨earlier, later, hSplit, hEarlier, hLater⟩ := split_of_foldl_nearer hRank hNearest
  obtain ⟨front, rest, hShapes, rfl, hRest⟩ := List.filterMap_eq_append_iff.mp hSplit
  obtain ⟨missed, shape, after, rfl, hMissed, hMet, rfl⟩ := List.filterMap_eq_cons_iff.mp hRest
  refine ⟨front ++ missed, shape, after, met, by rw [hShapes, List.append_assoc], hMet, rfl, ?_, ?_⟩
  · intro other hOther seen hSeen
    rcases List.mem_append.mp hOther with hFront | hBetween
    · have hLess := hEarlier seen (List.mem_filterMap.mpr ⟨other, hFront, hSeen⟩)
      exact Binary.lt_iff_rank.mpr ⟨isNaN_of_intersect? hMet, isNaN_of_intersect? hSeen, hLess⟩
    · rw [hMissed other hBetween] at hSeen
      cases hSeen
  · intro other hOther seen hSeen
    have hLe := hLater seen (List.mem_filterMap.mpr ⟨other, hOther, hSeen⟩)
    exact Binary.le_iff_rank.mpr ⟨isNaN_of_intersect? hMet, isNaN_of_intersect? hSeen, hLe⟩

theorem IsFirstNearest.isNaN {shapes : List (Shape Float)} {hit : Hit Float}
    (h : IsFirstNearest shapes ray hit) : hit.t.isNaN = false := by
  obtain ⟨-, shape, -, met, -, hMet, rfl, -⟩ := h
  have hNumber := isNaN_of_intersect? hMet
  exact hNumber

theorem IsFirstNearest.rank_le {shapes : List (Shape Float)} {hit : Hit Float}
    (h : IsFirstNearest shapes ray hit) {shape : Shape Float} (hShape : shape ∈ shapes) {other : Hit Float}
    (hOther : shape.intersect? ray = some other) : Binary.rank hit.t ≤ Binary.rank other.t := by
  obtain ⟨before, first, after, met, rfl, hMet, rfl, hBefore, hAfter⟩ := h
  rcases List.mem_append.mp hShape with hEarlier | hRest
  · exact (Binary.lt_iff_rank.mp (hBefore shape hEarlier other hOther)).2.2.le
  · rcases List.mem_cons.mp hRest with rfl | hLater
    · rw [Option.some.inj (hOther.symm.trans hMet)]
    · exact (Binary.le_iff_rank.mp (hAfter shape hLater other hOther)).2.2

/-- The least parameter does not depend on the order in which the shapes are tried. -/
theorem IsFirstNearest.beq_of_perm {shapes others : List (Shape Float)} {hit seen : Hit Float}
    (h : IsFirstNearest shapes ray hit) (hSeen : IsFirstNearest others ray seen)
    (hPerm : others.Perm shapes) : (seen.t == hit.t) = true := by
  obtain ⟨before, shape, after, met, hShapes, hMet, hHit, -⟩ := id h
  obtain ⟨front, other, rest, found, hOthers, hFound, hSeenHit, -⟩ := id hSeen
  have hShape : shape ∈ others := hPerm.mem_iff.mpr (by simp [hShapes])
  have hOther : other ∈ shapes := hPerm.mem_iff.mp (by simp [hOthers])
  have hBelow := hSeen.rank_le hShape hMet
  have hAbove := h.rank_le hOther hFound
  refine Binary.beq_iff_rank.mpr ⟨hSeen.isNaN, h.isNaN, ?_⟩
  subst hHit hSeenHit
  exact le_antisymm hBelow hAbove

/-- A ray sees nothing exactly when it meets no shape. Otherwise it sees the first of the nearest hits, at a
number inside its interval that no other hit falls below. So the order of the shapes decides neither whether
something is seen nor at which parameter. -/
theorem intersect?_isFirstNearest (world : World Float) (ray : Ray Float) :
    (world.intersect? ray = none ↔ ∀ shape ∈ world.shapes, shape.intersect? ray = none) ∧
      (∀ hit, world.intersect? ray = some hit →
        IsFirstNearest world.shapes ray hit ∧ hit.t.isNaN = false ∧
          (ray.interval.min < hit.t ∧ ray.interval.max.exceeds hit.t = true) ∧
          ∀ shape ∈ world.shapes, ∀ other, shape.intersect? ray = some other → ¬other.t < hit.t) ∧
      ∀ reordered : World Float, reordered.shapes.Perm world.shapes →
        ((reordered.intersect? ray).isSome = (world.intersect? ray).isSome ∧
          ∀ hit seen, world.intersect? ray = some hit → reordered.intersect? ray = some seen →
            (seen.t == hit.t) = true) := by
  refine ⟨intersect?_eq_none_iff, fun hit hSeen => ?_, fun reordered hPerm => ⟨?_, ?_⟩⟩
  · have hFirst := isFirstNearest_of_intersect? hSeen
    have hInside := surrounds_of_intersect? hSeen
    rw [Interval.surrounds, Bool.and_eq_true, decide_eq_true_eq] at hInside
    refine ⟨hFirst, hFirst.isNaN, hInside, fun other hOther found hFound hLess => ?_⟩
    have hRank := (Binary.lt_iff_rank.mp hLess).2.2
    exact absurd (hFirst.rank_le hOther hFound) (not_le.mpr hRank)
  · have hNone : reordered.intersect? ray = none ↔ world.intersect? ray = none := by
      simp only [intersect?_eq_none_iff, hPerm.mem_iff]
    rw [Bool.eq_iff_iff, ← Bool.not_eq_false, ← Bool.not_eq_false, Option.isSome_eq_false_iff,
      Option.isSome_eq_false_iff, Option.isNone_iff_eq_none, Option.isNone_iff_eq_none, hNone]
  · intro hit seen hHit hSeen
    exact (isFirstNearest_of_intersect? hHit).beq_of_perm (isFirstNearest_of_intersect? hSeen) hPerm

/-- The plane of the first two axes, glowing in a shade of red. -/
def redFloor (shade : Float) : Shape Float :=
  ⟨.plane, .identity, ⟨.diffuse (.uniform Color.white) 1.0, .uniform ⟨shade, 0.0, 0.0⟩⟩⟩

/-- A sphere of no extent. The inverse of its transformation is not made of finite numbers. -/
def collapsedSphere : Shape Float := ⟨.sphere, .scaling ⟨0.0, 0.0, 0.0⟩, .black⟩

def straightDown : Ray Float := ⟨⟨0.0, 0.0, 2.0⟩, ⟨0.0, 0.0, -1.0⟩, ⟨1e-5, .unbounded⟩, 0⟩

def glowsRed (shade : Float) (hit : Hit Float) : Bool :=
  (hit.material.emission.colorAt hit.uv).toOption.any (·.r == shade)

def twoFloors : World Float := ⟨[collapsedSphere, redFloor 0.25, redFloor 0.5], []⟩

/-- Two floors in one place. The one added first is seen, and the other one once they have been exchanged, at
the same parameter; a collapsed sphere is not met at all. -/
theorem intersect?_isFirstNearest_twoFloors :
    ∃ hit seen, twoFloors.intersect? straightDown = some hit ∧ glowsRed 0.25 hit = true ∧
      IsFirstNearest twoFloors.shapes straightDown hit ∧
      (⟨twoFloors.shapes.reverse, []⟩ : World Float).intersect? straightDown = some seen ∧
      glowsRed 0.5 seen = true ∧ (seen.t == hit.t) = true := by
  have hFirst : (twoFloors.intersect? straightDown).any (glowsRed 0.25) = true := by decide +kernel
  have hSecond : ((⟨twoFloors.shapes.reverse, []⟩ : World Float).intersect? straightDown).any
      (glowsRed 0.5) = true := by decide +kernel
  obtain ⟨hit, hHit, hRed⟩ := (Option.any_eq_true _ _).mp hFirst
  obtain ⟨seen, hSeen, hDeepRed⟩ := (Option.any_eq_true _ _).mp hSecond
  have hReordered := (intersect?_isFirstNearest twoFloors straightDown).2.2
    ⟨twoFloors.shapes.reverse, []⟩ (List.reverse_perm twoFloors.shapes)
  have hNearest := (intersect?_isFirstNearest twoFloors straightDown).2.1 hit hHit
  exact ⟨hit, seen, hHit, hRed, hNearest.1, hSeen, hDeepRed, hReordered.2 hit seen hHit hSeen⟩

end RayTracer.World
