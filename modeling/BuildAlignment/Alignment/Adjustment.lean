import BuildAlignment.Alignment.ProjectVersion
import BuildAlignment.Alignment.Request
import BuildAlignment.Alignment.Response

/-!
# Adjustments

After an authority has answered, adjustments change the response, in ascending order.

* `Adjustment` is a change to a response, `Adjustment.order` its place among the others.
* `Adjustment.applied?` is the response after a change.
* `insertOrdered` keeps a list ascending, and keeps what has one place in order of arrival.
-/

namespace BuildAlignment

inductive Adjustment where
  /-- Adds an override layer. -/
  | override (rules : OverrideLayer)
  /-- Sets the new version of the build. -/
  | projectVersion (settings : ProjectVersionSettings)
  /-- Pins the dynamic dependencies to what they resolved to. -/
  | pinDynamic

namespace Adjustment

/-- The version of the build comes early, overrides come next, and pinning comes late. -/
def order : Adjustment → Int
  | override _ => 0
  | projectVersion _ => -10
  | pinDynamic => 2147483547

/-- Applies a change. Only the version of the build can be without an answer. -/
def applied? (request : Request) (response : Response) : Adjustment → Option Response
  | override rules => some (response.pushLayer rules)
  | projectVersion settings =>
    (settings.compute? response.rawProjectVersion request.projectVersion).map
      response.setProjectVersion
  | pinDynamic => some (response.pin request.dynamicCoordinates)

end Adjustment

/-- Puts an item behind all items of its place and those before. -/
def insertOrdered {α : Type} (order : α → Int) (item : α) : List α → List α
  | [] => [item]
  | head :: rest =>
    if order item < order head then item :: head :: rest
    else head :: insertOrdered order item rest

theorem insertOrdered_perm {α : Type} (order : α → Int) (item : α) (items : List α) :
    (insertOrdered order item items).Perm (item :: items) := by
  induction items with
  | nil => exact List.Perm.refl _
  | cons head rest ih =>
    simp only [insertOrdered]
    split
    · exact List.Perm.refl _
    · exact (ih.cons head).trans (List.Perm.swap item head rest)

end BuildAlignment
