import Mathlib.Logic.Basic

/-! Objects that carry an approval of their content, and what becomes of one when a part of another
is put into it. -/
namespace Splice

/-- Objects for requests. Their approvals are parts of them, and `distinct` tells two objects
of different content apart by what an approval has of it. -/
structure Format (Time Object Request Content Approval Component : Type*) where
  valid : Time → Object → Prop
  distinct : Object → Object → Prop
  request : Object → Request
  content : Object → Content
  approval : Object → Approval
  splice : Component → Object → Object → Object
  approving : Component

variable {Time Object Request Content Approval Component : Type*}
  {F : Format Time Object Request Content Approval Component}

/-- Approvals bind contents. -/
structure Format.Binds (F : Format Time Object Request Content Approval Component) : Prop where
  content : ∀ {r r' t t'}, F.valid t r → F.valid t' r' → F.distinct r r' →
    F.approval r = F.approval r' → F.content r = F.content r'
  request : ∀ {r r'}, F.content r = F.content r' → F.request r = F.request r'
  splice : ∀ {component r r'}, component ≠ F.approving →
    F.approval (F.splice component r r') = F.approval r
  spliceApproval : ∀ {r r'}, F.approval (F.splice F.approving r r') = F.approval r'
  spliceRequest : ∀ {r r'}, F.request (F.splice F.approving r r') = F.request r

/-- An object does not stay valid with the approval of one for another request, nor with another
part of it that changes its content. -/
def Format.Rejects (F : Format Time Object Request Content Approval Component) : Prop :=
  ∀ component r r' t t' t'', F.valid t r → F.valid t' r' → F.request r ≠ F.request r' →
    F.distinct r (F.splice component r r') → F.distinct r' (F.splice component r r') →
    component = F.approving ∨ F.content (F.splice component r r') ≠ F.content r →
    ¬ F.valid t'' (F.splice component r r')

theorem Format.Binds.rejects (h : F.Binds) : F.Rejects := by
  intro component r r' t t' t'' hr hr' hrequest hdistinct hdistinct' hchange hspliced
  have happroving : component ≠ F.approving := by
    rintro rfl
    have hcontent := h.content hr' hspliced hdistinct' h.spliceApproval.symm
    have hsame := h.request hcontent
    rw [h.spliceRequest] at hsame
    exact hrequest hsame.symm
  have hcontent := h.content hr hspliced hdistinct (h.splice happroving).symm
  rcases hchange with hchange | hchange
  · exact happroving hchange
  · exact hchange hcontent.symm

end Splice
