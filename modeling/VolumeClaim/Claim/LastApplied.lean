import VolumeClaim.Claim.Document

/-!
# The last applied configuration

A claim can carry the text of itself as it was when it was applied, under one annotation.  The
text is taken without that annotation, so it never holds an earlier text of the claim, and
recording it again changes nothing.
-/

namespace VolumeClaim.Claim

def lastAppliedKey : Text := ascii "kubectl.kubernetes.io/last-applied-configuration"

def withoutLastApplied (c : Claim) : Claim :=
  c.withAnnotations (c.annotations.erase lastAppliedKey)

/-- the claim with its own text, taken without the annotation, under the annotation -/
def recordLastApplied (c : Claim) : Claim :=
  c.withAnnotations (c.annotations.insert lastAppliedKey c.withoutLastApplied.json)

end VolumeClaim.Claim
