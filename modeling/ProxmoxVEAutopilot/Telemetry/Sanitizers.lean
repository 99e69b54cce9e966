import ProxmoxVEAutopilot.Foundation.Markers
import ProxmoxVEAutopilot.Foundation.Scrubbing
import ProxmoxVEAutopilot.Foundation.Text

/-!
# Evidence sanitizers

`_sanitize_evidence` of install tracking writes a fixed text over the value of a sensitive
key, the one of deployment health drops the key, and `_clean` of the SDN client drops keys by
their exact name and sends booleans as numbers.
-/

namespace ProxmoxVEAutopilot.Telemetry

open Foundation
open Foundation.Json (Step)

set_option autoImplicit false

/-- `any(part in str(key).lower() for part in parts)` -/
def sensitive (parts : List String) (key : String) : Bool := parts.any (contains · (lower key))

namespace InstallTracking

def redaction : Scrubber where
  secret := sensitive ["token", "secret", "password", "authorization"]
  mask := some "[redacted]"
  wire := false

def sanitizeEvidence : Json → Json := redaction.scrub

end InstallTracking

namespace DeploymentHealth

def sensitiveKeyParts : List String :=
  ["token", "secret", "password", "authorization", "credential", "download_url", "url"]

def redaction : Scrubber where
  secret := sensitive sensitiveKeyParts
  mask := none
  wire := false

def sanitizeEvidence : Json → Json := redaction.scrub

end DeploymentHealth

namespace ProxmoxSdn

def secretFieldNames : List String := ["key", "token", "password", "secret"]

def redaction : Scrubber where
  secret := fun key => secretFieldNames.contains (lower key)
  mask := none
  wire := true

def clean : Json → Json := redaction.scrub

end ProxmoxSdn

/-- What is asked of a sanitizer `f` that follows the policy `p`. -/
structure Sanitizes (p : Scrubber) (f : Json → Json) : Prop where
  /-- Under a secret key there is nothing but the fixed text, whatever was stored there. -/
  hidden : ∀ v path out, p.Guarded path → (f v).at? path = some out → p.mask.map .str = some out
  steady : ∀ v w, p.Alike v w → f v = f w
  settled : ∀ v, f (f v) = f v
  leaves : ∀ v path leaf, ¬ p.Guarded path → v.at? path = some leaf → leaf.Leaf →
    (f v).at? path = some (p.wired leaf)
  lists : ∀ v path (xs : List Json), ¬ p.Guarded path → v.at? path = some (.arr xs) →
    ∃ ys, (f v).at? path = some (.arr ys) ∧ ys.length = xs.length ∧
      ∀ (i : Nat) x, xs[i]? = some x → ys[i]? = some (f x)
  /-- A harmless path of the result is a path of the value. -/
  nothingNew : ∀ v path, ¬ p.Guarded path → ((f v).at? path).isSome → (v.at? path).isSome

theorem scrub_sanitizes (p : Scrubber) : Sanitizes p p.scrub where
  hidden v path out hguarded hout := by
    rcases p.at?_scrub_guarded hguarded v with hnone | hmask
    · rw [hnone] at hout
      cases hout
    · rw [← hmask, hout]
  steady _ _ halike := p.scrub_alike halike
  settled := p.scrub_scrub
  leaves v path leaf hpath hat hleaf := by
    rw [p.at?_scrub hpath, hat, Option.map_some, p.scrub_leaf hleaf]
  lists v path xs hpath hat := by
    refine ⟨xs.map p.scrub, ?_, List.length_map _, ?_⟩
    · rw [p.at?_scrub hpath, hat, Option.map_some, p.scrub_arr]
    · intro i x hx
      rw [List.getElem?_map, hx, Option.map_some]
  nothingNew v path hpath hsome := by
    rw [p.at?_scrub hpath, Option.isSome_map] at hsome
    exact hsome

example : InstallTracking.sanitizeEvidence
      (.obj [("API_Token", .str "s3cret"), ("steps", .arr [.obj [("name", .str "dns")]])]) =
    .obj [("API_Token", .str "[redacted]"), ("steps", .arr [.obj [("name", .str "dns")]])] := by
  decide +kernel

example : ProxmoxSdn.clean (.obj [("key", .str "s3cret"), ("vlanaware", .bool true)]) =
    .obj [("vlanaware", .int 1)] := by
  decide +kernel

end ProxmoxVEAutopilot.Telemetry
