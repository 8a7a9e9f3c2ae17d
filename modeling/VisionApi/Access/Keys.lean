import Mathlib.Data.List.Induction
import VisionApi.Foundation.Grouping
import VisionApi.RateLimit.Limiter

/-!
# API keys

The store maps the hash of a key to its record.  `resolve` compares the hash of a
candidate with every stored one, so that its work does not depend on which of them
matches.

The loop keeps the last record that matches.  Since a hash has one entry in the
store, there is at most one, and `resolve` finds what a lookup would
(`resolve_eq_get?`).  The hash is a parameter: two keys with one hash share a record,
and the later registration replaces the earlier one.

The keys of the development deployment are those that the service seeds.
-/

namespace VisionApi.Access

open Foundation RateLimit

/-- Whom a key belongs to, and its hash. -/
structure APIKeyRecord where
  userId : String
  tier : UserTier
  keyHash : String
deriving DecidableEq

/-- `APIKeyStore`, with `hash_api_key`. -/
abbrev APIKeyStore := Dict String APIKeyRecord

/-- A key that is registered for a user. -/
structure Registration where
  apiKey : String
  userId : String
  tier : UserTier
deriving DecidableEq

/-- The record of a registration. -/
def Registration.record (hashApiKey : String → String) (registration : Registration) :
    APIKeyRecord :=
  ⟨registration.userId, registration.tier, hashApiKey registration.apiKey⟩

namespace APIKeyStore

/-- A registration under its hash replaces an earlier one. -/
def add (hashApiKey : String → String) (store : APIKeyStore) (registration : Registration) :
    APIKeyStore :=
  store.set (registration.record hashApiKey).keyHash (registration.record hashApiKey)

/-- The loop over all records, which keeps the last one that matches. -/
def resolve (hashApiKey : String → String) (store : APIKeyStore) (apiKey : String) :
    Option APIKeyRecord :=
  store.foldl (fun matched entry => if entry.1 = hashApiKey apiKey then some entry.2 else matched)
    none

/-- The store after some registrations. -/
def ofRegistrations (hashApiKey : String → String) (registrations : List Registration) :
    APIKeyStore :=
  registrations.foldl (add hashApiKey) []

end APIKeyStore

/-- No two records have the same hash. -/
def APIKeyStore.Distinct (store : APIKeyStore) : Prop :=
  (store.map Prod.fst).Nodup

section Store

variable {hashApiKey : String → String} {store : APIKeyStore} {registration : Registration}

/-- Where hashes are distinct, the loop finds what a lookup finds. -/
theorem foldl_matching {entries : APIKeyStore} (candidate : String) (distinct : entries.Distinct)
    (matched : Option APIKeyRecord) :
    entries.foldl (fun matched entry => if entry.1 = candidate then some entry.2 else matched)
      matched = (Dict.get? entries candidate).or matched := by
  induction entries generalizing matched with
  | nil => simp [Dict.get?]
  | cons entry rest ih =>
      simp only [APIKeyStore.Distinct, List.map_cons, List.nodup_cons] at distinct
      simp only [List.foldl_cons, ih distinct.2]
      by_cases isCandidate : entry.1 = candidate
      · subst isCandidate
        have absent : Dict.get? rest entry.1 = none := by
          apply Option.eq_none_iff_forall_ne_some.mpr
          intro record found
          have isEntry : (entry.1, record) ∈ rest := Dict.mem_of_get? found
          exact distinct.1 (List.mem_map.mpr ⟨(entry.1, record), isEntry, rfl⟩)
        simp [Dict.get?, absent]
      · simp [Dict.get?, isCandidate]

/-- Comparing with every record finds what a lookup finds. -/
theorem resolve_eq_get? (distinct : store.Distinct) (apiKey : String) :
    store.resolve hashApiKey apiKey = Dict.get? store (hashApiKey apiKey) := by
  simp [APIKeyStore.resolve, foldl_matching (hashApiKey apiKey) distinct]

theorem APIKeyStore.Distinct.add (distinct : store.Distinct) (registration : Registration) :
    (store.add hashApiKey registration).Distinct :=
  Dict.nodup_keys_set distinct _ _

/-- A key resolves to the record of the last registration with its hash. -/
theorem resolve_add (distinct : store.Distinct) (registration : Registration) (apiKey : String) :
    (store.add hashApiKey registration).resolve hashApiKey apiKey =
      if hashApiKey registration.apiKey = hashApiKey apiKey then
        some (registration.record hashApiKey)
      else store.resolve hashApiKey apiKey := by
  simp only [resolve_eq_get? (distinct.add registration), resolve_eq_get? distinct]
  split
  · rename_i same
    simp [APIKeyStore.add, Registration.record, ← same]
  · rename_i other
    apply Dict.get?_set_ne
    simpa [Registration.record, eq_comm] using other

theorem distinct_ofRegistrations (hashApiKey : String → String)
    (registrations : List Registration) :
    (APIKeyStore.ofRegistrations hashApiKey registrations).Distinct := by
  induction registrations using List.reverseRecOn with
  | nil => simp [APIKeyStore.ofRegistrations, APIKeyStore.Distinct]
  | append_singleton earlier registration ih =>
      simpa [APIKeyStore.ofRegistrations] using ih.add registration

theorem ofRegistrations_append_singleton (hashApiKey : String → String)
    (earlier : List Registration) (registration : Registration) :
    APIKeyStore.ofRegistrations hashApiKey (earlier ++ [registration]) =
      (APIKeyStore.ofRegistrations hashApiKey earlier).add hashApiKey registration := by
  simp [APIKeyStore.ofRegistrations]

/-- Whatever was registered before and whatever the order of the dictionary is, the loop finds the
last registration of the key. -/
theorem resolve_ofRegistrations (hashApiKey : String → String)
    (registrations : List Registration) (apiKey : String) :
    (APIKeyStore.ofRegistrations hashApiKey registrations).resolve hashApiKey apiKey =
      (registrations.reverse.find? fun registration =>
        hashApiKey registration.apiKey = hashApiKey apiKey).map
          (Registration.record hashApiKey) := by
  induction registrations using List.reverseRecOn with
  | nil => rfl
  | append_singleton earlier registration ih =>
      simp only [ofRegistrations_append_singleton,
        resolve_add (distinct_ofRegistrations hashApiKey earlier), ih, List.reverse_append,
        List.reverse_singleton, List.singleton_append, List.find?_cons]
      split <;> simp [*]

end Store

/-! ## Keys of a deployment -/

/-- The environments a deployment runs in. -/
inductive AppEnv where
  | development
  | staging
  | production
deriving DecidableEq

/-- What `_seed_api_keys` registers. -/
def seedApiKeys : AppEnv → List Registration
  | .production => []
  | .development | .staging =>
      [UserTier.free, .pro, .enterprise].map fun tier =>
        ⟨"dev-key-" ++ tier.value, "dev-" ++ tier.value, tier⟩

end VisionApi.Access
