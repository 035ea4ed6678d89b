import VolumeClaim.Node.Layout
import VolumeClaim.Output

/-!
# Output as text

The text of what a command prints.  A JSON or YAML document ends with a line break.
-/

namespace VolumeClaim.Output

def render : Output → Text
  | .text t => t
  | .json c => c.document.indented 0 ++ [10]
  | .yaml n => n.layout ++ [10]

end VolumeClaim.Output
