import Provision.Storage.Bucket
import Provision.Storage.LocalDirectory
import Provision.Storage.Nowhere

/-!
# The driver a configuration asks for
-/

namespace Provision.Storage

def Driver.ofConfig (c : Config) : Except Error Driver :=
  if c.driverName = "s3" then (Bucket.ofConfig c).map Bucket.driver
  else if c.driverName = "local" then (LocalDirectory.rootOf c).map LocalDirectory.driver
  else if c.driverName = "null" then .ok Nowhere.driver
  else .error (.unsupportedDriver c.driverName)

theorem Driver.ofConfig_cases {c : Config} {driver : Driver} (h : ofConfig c = .ok driver) :
    (∃ b, driver = Bucket.driver b) ∨ (∃ root, driver = LocalDirectory.driver root) ∨
      driver = Nowhere.driver := by
  unfold ofConfig at h
  split at h
  · cases hb : Bucket.ofConfig c with
    | error e =>
      rw [hb] at h
      cases h
    | ok b =>
      rw [hb] at h
      cases h
      exact .inl ⟨b, rfl⟩
  · split at h
    · cases hroot : LocalDirectory.rootOf c with
      | error e =>
        rw [hroot] at h
        cases h
      | ok root =>
        rw [hroot] at h
        cases h
        exact .inr (.inl ⟨root, rfl⟩)
    · split at h
      · cases h
        exact .inr (.inr rfl)
      · cases h

end Provision.Storage
