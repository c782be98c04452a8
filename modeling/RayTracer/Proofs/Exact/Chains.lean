import Mathlib
import RayTracer.Geometry.Ray
import RayTracer.Proofs.Exact.Actions

/-! Chains of transformations. A chain is composed from left to right, and its first step is the outermost:
what it is applied to meets the last step first. Composing is the product in the monoid of transformations,
so chains are composed piece by piece and are undone step by step in reverse. -/

namespace RayTracer

namespace Transformation

/-- Transformations under composition, in both matrices. -/
noncomputable instance : Monoid (Transformation ℝ) where
  mul_assoc a b c := by
    change (⟨_, _⟩ : Transformation ℝ) = ⟨_, _⟩
    exact congrArg₂ mk (mul_assoc _ _ _) (mul_assoc _ _ _).symm
  one := identity
  one_mul t := congrArg₂ mk (Matrix.identity_mul t.forward) (Matrix.mul_identity t.backward)
  mul_one t := congrArg₂ mk (Matrix.mul_identity t.forward) (Matrix.identity_mul t.backward)

/-- Composing from left to right is the product of the monoid. -/
theorem ofList_eq_prod (factors : List (Transformation ℝ)) : ofList factors = factors.prod :=
  List.prod_eq_foldl.symm

/-- A product is undone in reverse. -/
theorem inverse_mul (s t : Transformation ℝ) : (s * t).inverse = t.inverse * s.inverse := rfl

/-- A chain is undone factor by factor in reverse. -/
theorem inverse_prod (factors : List (Transformation ℝ)) :
    factors.prod.inverse = (factors.map inverse).reverse.prod := by
  induction factors with
  | nil => rfl
  | cons first rest ih =>
      rw [List.prod_cons, inverse_mul, ih, List.map_cons, List.reverse_cons, List.prod_append,
        List.prod_singleton]

/-- What is undone after it has been done leaves nothing. -/
theorem Regular.inverse_mul_self {t : Transformation ℝ} (h : t.Regular) : t.inverse * t = 1 := by
  change (⟨t.backward * t.forward, t.backward * t.forward⟩ : Transformation ℝ) = identity
  rw [h.backward_forward, identity]

/-- Ways in which transformations act: the identity leaves everything as it is, and a product of affine maps
acts by its right factor and then by its left one. -/
structure IsAction {β : Type} (act : Transformation ℝ → β → β) : Prop where
  one (x : β) : act 1 x = x
  mul {s t : Transformation ℝ} (hs : s.backward.row3 = Row.affine) (ht : t.forward.row3 = Row.affine) (x : β) :
    act (s * t) x = act s (act t x)

/-- Points are moved by a product as by its factors in turn. -/
theorem isAction_applyPoint : IsAction (applyPoint : Transformation ℝ → Point ℝ → Point ℝ) :=
  ⟨applyPoint_identity, fun _ ht => applyPoint_mul ht⟩

theorem isAction_applyVec : IsAction (applyVec : Transformation ℝ → Vec ℝ → Vec ℝ) :=
  ⟨applyVec_identity, fun _ ht => applyVec_mul ht⟩

theorem isAction_applyNormal : IsAction (applyNormal : Transformation ℝ → Normal ℝ → Normal ℝ) :=
  ⟨applyNormal_identity, fun hs _ => applyNormal_mul hs⟩

/-- Rays are acted on in their origin and their direction. -/
theorem isAction_transform : IsAction fun t (ray : Ray ℝ) => ray.transform t where
  one ray := by rw [Ray.transform, isAction_applyPoint.one, isAction_applyVec.one]
  mul hs ht ray := by
    rw [Ray.transform, isAction_applyPoint.mul hs ht, isAction_applyVec.mul hs ht]
    rfl

/-- An inverse brings back whatever its transformation acts on. -/
theorem IsAction.inverse_act {β : Type} {act : Transformation ℝ → β → β} (hAct : IsAction act)
    {t : Transformation ℝ} (ht : t.Regular) (x : β) : act t.inverse (act t x) = x := by
  rw [← hAct.mul ht.forward_affine ht.forward_affine, ht.inverse_mul_self, hAct.one]

end Transformation

namespace TransformStep

/-- The step that takes a step back. -/
noncomputable def inverted : TransformStep ℝ → TransformStep ℝ
  | .identity => .identity
  | .translation offset => .translation (-offset)
  | .scaling factors => .scaling ⟨1.0 / factors.x, 1.0 / factors.y, 1.0 / factors.z⟩
  | .rotationX angle => .rotationX (-angle)
  | .rotationY angle => .rotationY (-angle)
  | .rotationZ angle => .rotationZ (-angle)

/-- To invert a step is to invert its transformation. -/
theorem toTransformation_inverted (step : TransformStep ℝ) :
    step.inverted.toTransformation = step.toTransformation.inverse := by
  have hAngle (angle : ℝ) : Scalar.radians (-angle) = -Scalar.radians angle := neg_mul _ _
  cases step with
  | identity => rfl
  | translation offset =>
      have hTwice : - -offset = offset := by
        change (⟨- -offset.x, - -offset.y, - -offset.z⟩ : Vec ℝ) = offset
        simp only [neg_neg]
      simp only [inverted, toTransformation, Transformation.translation, Transformation.inverse, hTwice]
  | scaling factors =>
      have hTwice (k : ℝ) : 1.0 / (1.0 / k) = k := by norm_num
      simp only [inverted, toTransformation, Transformation.scaling, Transformation.inverse, hTwice]
  | rotationX angle =>
      simp only [inverted, toTransformation, Transformation.rotationX, Transformation.inverse, hAngle, neg_neg]
  | rotationY angle =>
      simp only [inverted, toTransformation, Transformation.rotationY, Transformation.inverse, hAngle, neg_neg]
  | rotationZ angle =>
      simp only [inverted, toTransformation, Transformation.rotationZ, Transformation.inverse, hAngle, neg_neg]

/-- Scalings without a zero factor, and all other steps. -/
def IsInvertible : TransformStep ℝ → Prop
  | .scaling factors => factors.x ≠ 0 ∧ factors.y ≠ 0 ∧ factors.z ≠ 0
  | _ => True

/-- A step that can be undone is a regular transformation. -/
theorem regular_toTransformation {step : TransformStep ℝ} (h : step.IsInvertible) :
    step.toTransformation.Regular := by
  cases step with
  | identity => exact Transformation.regular_identity
  | translation offset => exact Transformation.regular_translation offset
  | scaling factors => exact Transformation.regular_scaling h.1 h.2.1 h.2.2
  | rotationX angle => exact Transformation.regular_rotationX angle
  | rotationY angle => exact Transformation.regular_rotationY angle
  | rotationZ angle => exact Transformation.regular_rotationZ angle

/-- Every step is an affine map, even one that nothing takes back. -/
theorem row3_toTransformation (step : TransformStep ℝ) :
    step.toTransformation.forward.row3 = Row.affine ∧ step.toTransformation.backward.row3 = Row.affine := by
  have hAffine := Transformation.regular_identity.forward_affine
  cases step <;> exact ⟨hAffine, hAffine⟩

end TransformStep

namespace Transformation

/-- The first step is the outermost. -/
theorem ofSteps_cons (step : TransformStep ℝ) (steps : List (TransformStep ℝ)) :
    ofSteps (step :: steps) = step.toTransformation * ofSteps steps := by
  rw [ofSteps, ofSteps, ofList_eq_prod, ofList_eq_prod, List.map_cons, List.prod_cons]

/-- Steps that are put one after the other compose as their chains do. -/
theorem ofSteps_append (steps later : List (TransformStep ℝ)) :
    ofSteps (steps ++ later) = ofSteps steps * ofSteps later := by
  rw [ofSteps, ofSteps, ofSteps, ofList_eq_prod, ofList_eq_prod, ofList_eq_prod, List.map_append,
    List.prod_append]

/-- The inverse of a chain is the chain of the inverse steps in reverse. -/
theorem inverse_ofSteps (steps : List (TransformStep ℝ)) :
    (ofSteps steps).inverse = ofList (steps.reverse.map fun step => step.toTransformation.inverse) := by
  rw [ofSteps, ofList_eq_prod, ofList_eq_prod, inverse_prod, List.map_map, List.map_reverse]
  rfl

/-- Steps compose to affine maps. -/
theorem row3_ofSteps (steps : List (TransformStep ℝ)) :
    (ofSteps steps).forward.row3 = Row.affine := by
  induction steps with
  | nil => exact regular_identity.forward_affine
  | cons step steps ih =>
      rw [ofSteps_cons]
      exact Matrix.row3_mul_of_affine step.row3_toTransformation.1 ih

/-- Steps that can be undone compose to a regular transformation. -/
theorem regular_ofSteps {steps : List (TransformStep ℝ)} (h : ∀ step ∈ steps, step.IsInvertible) :
    (ofSteps steps).Regular := by
  induction steps with
  | nil => exact regular_identity
  | cons step steps ih =>
      obtain ⟨hFirst, hRest⟩ := List.forall_mem_cons.mp h
      rw [ofSteps_cons]
      exact (TransformStep.regular_toTransformation hFirst).mul (ih hRest)

/-- Whatever a chain acts on, it acts on it by one step after the other, from the last to the first. -/
theorem IsAction.act_ofSteps {β : Type} {act : Transformation ℝ → β → β} (hAct : IsAction act)
    (steps : List (TransformStep ℝ)) (x : β) :
    act (ofSteps steps) x = steps.foldr (fun step y => act step.toTransformation y) x := by
  induction steps with
  | nil => exact hAct.one x
  | cons step steps ih =>
      rw [ofSteps_cons, hAct.mul step.row3_toTransformation.2 (row3_ofSteps steps), ih, List.foldr_cons]

/-- A chain acts on points, vectors, normals and rays by its steps, one after the other from the last to the
first. Chains that follow each other are multiplied, in both matrices. The inverse of a chain is composed of
the inverse steps in reverse order, which is a chain of steps again, and it takes back what the chain does to
any of these unless some step scales by zero. -/
theorem ofSteps_stepwise (steps : List (TransformStep ℝ)) :
    ((∀ p : Point ℝ, (ofSteps steps).applyPoint p =
        steps.foldr (fun step q => step.toTransformation.applyPoint q) p) ∧
      (∀ v : Vec ℝ, (ofSteps steps).applyVec v =
        steps.foldr (fun step u => step.toTransformation.applyVec u) v) ∧
      (∀ n : Normal ℝ, (ofSteps steps).applyNormal n =
        steps.foldr (fun step m => step.toTransformation.applyNormal m) n) ∧
      ∀ ray : Ray ℝ, ray.transform (ofSteps steps) =
        steps.foldr (fun step image => image.transform step.toTransformation) ray) ∧
    (∀ later : List (TransformStep ℝ), ofSteps (steps ++ later) = ofSteps steps * ofSteps later) ∧
    ((ofSteps steps).inverse = ofList (steps.reverse.map fun step => step.toTransformation.inverse) ∧
      (ofSteps steps).inverse = ofSteps (steps.reverse.map TransformStep.inverted)) ∧
    ((∀ factors, .scaling factors ∈ steps → factors.x ≠ 0 ∧ factors.y ≠ 0 ∧ factors.z ≠ 0) →
      (∀ p : Point ℝ, (ofSteps steps).inverse.applyPoint ((ofSteps steps).applyPoint p) = p) ∧
      (∀ v : Vec ℝ, (ofSteps steps).inverse.applyVec ((ofSteps steps).applyVec v) = v) ∧
      (∀ n : Normal ℝ, (ofSteps steps).inverse.applyNormal ((ofSteps steps).applyNormal n) = n) ∧
      ∀ ray : Ray ℝ, (ray.transform (ofSteps steps)).transform (ofSteps steps).inverse = ray) := by
  have hInverted : (ofSteps steps).inverse = ofSteps (steps.reverse.map TransformStep.inverted) := by
    rw [inverse_ofSteps, ofSteps, List.map_map]
    exact congrArg ofList (List.map_congr_left fun step _ => step.toTransformation_inverted.symm)
  refine ⟨⟨isAction_applyPoint.act_ofSteps steps, isAction_applyVec.act_ofSteps steps,
    isAction_applyNormal.act_ofSteps steps, isAction_transform.act_ofSteps steps⟩,
    ofSteps_append steps, ⟨inverse_ofSteps steps, hInverted⟩, fun hFactors => ?_⟩
  have hInvertible : ∀ step ∈ steps, step.IsInvertible := by
    intro step hStep
    cases step with
    | scaling factors => exact hFactors factors hStep
    | _ => trivial
  have hRegular := regular_ofSteps hInvertible
  exact ⟨isAction_applyPoint.inverse_act hRegular, isAction_applyVec.inverse_act hRegular,
    isAction_applyNormal.inverse_act hRegular, isAction_transform.inverse_act hRegular⟩

/-- Scaled unevenly and mirrored, then moved. -/
noncomputable def movedAfterScaling : List (TransformStep ℝ) :=
  [.translation ⟨1.0, 2.0, 3.0⟩, .identity, .scaling ⟨2.0, -1.0, 4.0⟩]

/-- The last step comes first: the point is scaled before it is moved, and what it becomes is taken back. -/
theorem ofSteps_stepwise_movedAfterScaling :
    (ofSteps movedAfterScaling).applyPoint ⟨1, 1, 1⟩ = ⟨3, 1, 7⟩ ∧
      (ofSteps movedAfterScaling).inverse.applyPoint ⟨3, 1, 7⟩ = ⟨1, 1, 1⟩ := by
  obtain ⟨⟨hPoint, -⟩, -, -, hUndone⟩ := ofSteps_stepwise movedAfterScaling
  have hFactors : ∀ factors, .scaling factors ∈ movedAfterScaling →
      factors.x ≠ 0 ∧ factors.y ≠ 0 ∧ factors.z ≠ 0 := by
    intro factors hMem
    simp only [movedAfterScaling, List.mem_cons, reduceCtorEq, false_or, TransformStep.scaling.injEq,
      List.not_mem_nil, or_false] at hMem
    subst hMem
    norm_num
  have hImage : (ofSteps movedAfterScaling).applyPoint ⟨1, 1, 1⟩ = ⟨3, 1, 7⟩ := by
    have hScaled : (scaling ⟨2.0, -1.0, 4.0⟩ : Transformation ℝ).applyPoint ⟨1, 1, 1⟩ = ⟨2, -1, 4⟩ := by
      norm_num [applyPoint, scaling, Matrix.scaling, Matrix.identity, Matrix.apply, Row.dot, Scalar.same]
    have hMoved : (translation ⟨1.0, 2.0, 3.0⟩ : Transformation ℝ).applyPoint ⟨2, -1, 4⟩ = ⟨3, 1, 7⟩ := by
      norm_num [applyPoint, translation, Matrix.translation, Matrix.identity, Matrix.apply, Row.dot,
        Scalar.same]
    calc
      (ofSteps movedAfterScaling).applyPoint ⟨1, 1, 1⟩ = (translation ⟨1.0, 2.0, 3.0⟩).applyPoint
          ((identity : Transformation ℝ).applyPoint ((scaling ⟨2.0, -1.0, 4.0⟩).applyPoint ⟨1, 1, 1⟩)) := hPoint _
      _ = ⟨3, 1, 7⟩ := by rw [hScaled, applyPoint_identity, hMoved]
  exact ⟨hImage, hImage ▸ (hUndone hFactors).1 ⟨1, 1, 1⟩⟩

end Transformation

end RayTracer
