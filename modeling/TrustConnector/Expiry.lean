/-
**The warning about a certificate that expires soon.**

At start the connector looks at its own certificate and logs a warning if it expires within a
configured number of days.  The number is a signed 64-bit integer that no check looks at.  It is
clamped at zero, taken as an unsigned one and multiplied by the seconds of a day, in 64 bits: a build
with overflow checks stops where the product does not fit, and any other build goes on with what is
left of it.

Main definitions:

* `expiryThreshold` — the threshold in seconds, in both kinds of build;
* `CertificateSummary`, `certificateSummary` — what the warning reads from a certificate;
* `warnCertificateExpiry` — the warnings that are logged.

Main results:

* `thresholdOverflows_iff` — the product does not fit from 213503982334602 days on;
* `warnCertificateExpiry_mono` — below that, more days give more warnings;
* `expiry_warning_iff` — **a longer threshold hides no warning exactly up to that bound**.
-/

import TrustConnector.Identity
import TrustConnector.Validate

set_option relaxedAutoImplicit false
set_option autoImplicit false

namespace TrustConnector

open Text Fallible

/-! ### The threshold -/

/-- The two kinds of build: with overflow checks, or without. -/
inductive Build where
  | checked
  | wrapping
  deriving DecidableEq, Repr

/-- The product of the threshold does not fit into 64 bits. -/
def ThresholdOverflows (days : Int64) : Prop := 2 ^ 64 ≤ (max days 0).toUInt64.toNat * 86400

instance (days : Int64) : Decidable (ThresholdOverflows days) :=
  inferInstanceAs (Decidable (2 ^ 64 ≤ (max days 0).toUInt64.toNat * 86400))

/-- The threshold in seconds, or nothing if the build stops at the overflow. -/
def expiryThreshold (build : Build) (days : Int64) : Option UInt64 :=
  if build = .checked ∧ ThresholdOverflows days then none
  else some ((max days 0).toUInt64 * 86400)

/-- A number of days, clamped and taken as unsigned. -/
theorem toNat_clamped (days : Int64) : (max days 0).toUInt64.toNat = days.toInt.toNat := by
  by_cases h : days ≤ 0
  · have hmax : max days 0 = 0 := if_pos h
    have hneg := Int64.le_iff_toInt_le.1 h
    rw [hmax, Int.toNat_of_nonpos (by simpa using hneg)]
    rfl
  · have hmax : max days 0 = days := if_neg h
    have hpos : ¬ days.toInt ≤ 0 := fun hneg => h (Int64.le_iff_toInt_le.2 (by simpa using hneg))
    have hword : days.toInt = days.toUInt64.toBitVec.toInt := rfl
    rw [hmax, ← UInt64.toNat_toBitVec, hword]
    rw [hword, BitVec.toInt_eq_toNat_cond] at hpos
    rw [BitVec.toInt_eq_toNat_cond]
    have := days.toUInt64.toBitVec.isLt
    split_ifs at hpos ⊢ with hsign <;> omega

/-- **The product fits up to 213503982334601 days.** -/
theorem thresholdOverflows_iff {days : Int64} :
    ThresholdOverflows days ↔ 213503982334601 < days.toInt := by
  rw [ThresholdOverflows, toNat_clamped]
  omega

theorem expiryThreshold_of_fits {days : Int64} (h : ¬ ThresholdOverflows days) (build : Build) :
    ∃ seconds, expiryThreshold build days = some seconds ∧
      seconds.toNat = days.toInt.toNat * 86400 := by
  refine ⟨(max days 0).toUInt64 * 86400, if_neg (fun hc => h hc.2), ?_⟩
  rw [ThresholdOverflows, toNat_clamped] at h
  rw [UInt64.toNat_mul, toNat_clamped]
  exact Nat.mod_eq_of_lt (by simpa using h)

/-! ### The warnings -/

/-- What the warning reads from a certificate. -/
structure CertificateSummary where
  notAfter : Str
  /-- A reading of the system clock. -/
  notAfterSystem : ℤ
  deriving DecidableEq, Repr

/-- Whether a certificate has no more than the given seconds left, at a reading of the clock. -/
def CertificateSummary.expiresWithin (summary : CertificateSummary) (now : ℤ) (duration : UInt64) :
    Bool :=
  -- a certificate that has expired is reported with every threshold
  if now ≤ summary.notAfterSystem then
    summary.notAfterSystem - now ≤ (duration.toNat : ℤ) * 1000000000
  else true

section

-- the libraries, the machine, and how a time is written
variable (P : Pki) (H : Host) (rfc3339 : ℤ → Option Str)

def certificateSummary (certPath : Str) : Except Str CertificateSummary := do
  match ← loadCerts P H certPath with
  | [] => .error (str "certificate file contains no certificates")
  | first :: _ =>
      let cert ← parseCertDer P first
      let notAfterSystem := asSystemTime cert.notAfter
      return { notAfter := (rfc3339 notAfterSystem).getD (str "unknown"), notAfterSystem }

/-- The warning about one certificate, with its file and its time. -/
def expiryWarning (threshold : UInt64) (identity : IdentityFiles) : Option (Str × Str) :=
  -- a certificate that cannot be read is passed over
  match certificateSummary P H rfc3339 identity.cert with
  | .error _ => none
  | .ok summary =>
      if summary.expiresWithin H.now threshold then some (identity.cert, summary.notAfter) else none

/-- The certificate that a connector shows in a mode. -/
def ownIdentities (config : ConnectorConfig) : Mode → List IdentityFiles
  | .client => config.clientIdentity.toList
  | .server => config.serverIdentity.toList

/-- The warnings of a start, or nothing if the build stops. -/
def warnCertificateExpiry (build : Build) (config : ConnectorConfig) (mode : Mode) :
    Option (List (Str × Str)) :=
  (expiryThreshold build config.limits.expiryWarningDays).map fun threshold =>
    (ownIdentities config mode).filterMap (expiryWarning P H rfc3339 threshold)

end

/-- The same configuration with another number of days. -/
def ConnectorConfig.withExpiryWarningDays (config : ConnectorConfig) (days : Int64) :
    ConnectorConfig :=
  { config with limits := { config.limits with expiryWarningDays := days } }

/-- Every number of days is admitted: no check looks at it. -/
theorem validateConfig_withExpiryWarningDays (P : Pki) (H : Host) (config : ConnectorConfig)
    (days : Int64) (mode : Mode) (requireEnv : Bool) :
    validateConfig P H (config.withExpiryWarningDays days) mode requireEnv =
      validateConfig P H config mode requireEnv := by
  have hcommon : validateCommon (config.withExpiryWarningDays days) = validateCommon config := rfl
  have hclient : validateClient P H (config.withExpiryWarningDays days) requireEnv =
      validateClient P H config requireEnv := rfl
  have hserver : validateServer P H (config.withExpiryWarningDays days) requireEnv =
      validateServer P H config requireEnv := rfl
  cases mode with
  | client => rw [validateConfig, validateConfig, configErrors, configErrors, hclient, hcommon]
  | server => rw [validateConfig, validateConfig, configErrors, configErrors, hserver, hcommon]

section

variable {P : Pki} {H : Host} {rfc3339 : ℤ → Option Str}

theorem CertificateSummary.expiresWithin_mono {summary : CertificateSummary} {now : ℤ}
    {s t : UInt64} (hle : s.toNat ≤ t.toNat) (h : summary.expiresWithin now s = true) :
    summary.expiresWithin now t = true := by
  simp only [expiresWithin] at h ⊢
  split_ifs at h ⊢ with hpast
  · rw [decide_eq_true_eq] at h ⊢
    omega
  · rfl

theorem expiryWarning_mono {s t : UInt64} {identity : IdentityFiles} {warning : Str × Str}
    (hle : s.toNat ≤ t.toNat) (h : expiryWarning P H rfc3339 s identity = some warning) :
    expiryWarning P H rfc3339 t identity = some warning := by
  rw [expiryWarning] at h ⊢
  cases hsummary : certificateSummary P H rfc3339 identity.cert with
  | error e => simp [hsummary] at h
  | ok summary =>
      simp only [hsummary] at h ⊢
      split_ifs at h with hexpires
      rw [if_pos (CertificateSummary.expiresWithin_mono hle hexpires)]
      exact h

/-- **Below the bound, more days give more warnings.** -/
theorem warnCertificateExpiry_mono {d₁ d₂ : Int64} (hle : d₁ ≤ d₂) (hfits : ¬ ThresholdOverflows d₂)
    (build : Build) (config : ConnectorConfig) (mode : Mode) :
    ∃ warned warned',
      warnCertificateExpiry P H rfc3339 build (config.withExpiryWarningDays d₁) mode = some warned ∧
      warnCertificateExpiry P H rfc3339 build (config.withExpiryWarningDays d₂) mode =
        some warned' ∧ warned ⊆ warned' := by
  have hint := Int64.le_iff_toInt_le.1 hle
  have hfits₁ : ¬ ThresholdOverflows d₁ := by
    rw [thresholdOverflows_iff] at hfits ⊢
    omega
  obtain ⟨s, hs, hsnat⟩ := expiryThreshold_of_fits hfits₁ build
  obtain ⟨t, ht, htnat⟩ := expiryThreshold_of_fits hfits build
  have hst : s.toNat ≤ t.toNat := by omega
  refine ⟨_, _, congrArg (Option.map _) hs, congrArg (Option.map _) ht, ?_⟩
  intro warning hwarning
  obtain ⟨identity, hidentity, hwarning⟩ := List.mem_filterMap.1 hwarning
  exact List.mem_filterMap.2 ⟨identity, hidentity, expiryWarning_mono hst hwarning⟩

end

/-- **A longer threshold hides no warning exactly up to 213503982334601 days.**  For two numbers of
days in order: the thresholds are computed without an overflow, and in every build, for every
certificate and at every time, what is reported with the smaller number is reported with the larger
one, if and only if the larger one is at most that. -/
theorem expiry_warning_iff {d₁ d₂ : Int64} (hle : d₁ ≤ d₂) :
    ((¬ ThresholdOverflows d₁ ∧ ¬ ThresholdOverflows d₂) ∧
        ∀ (P : Pki) (H : Host) (rfc3339 : ℤ → Option Str) (build : Build) (config : ConnectorConfig)
          (mode : Mode), ∃ warned warned',
          warnCertificateExpiry P H rfc3339 build (config.withExpiryWarningDays d₁) mode =
            some warned ∧
          warnCertificateExpiry P H rfc3339 build (config.withExpiryWarningDays d₂) mode =
            some warned' ∧ warned ⊆ warned') ↔
      d₂.toInt ≤ 213503982334601 := by
  have hint := Int64.le_iff_toInt_le.1 hle
  simp only [thresholdOverflows_iff]
  constructor
  · rintro ⟨⟨-, hfits⟩, -⟩
    omega
  · intro hbound
    have hfits : ¬ ThresholdOverflows d₂ := by
      rw [thresholdOverflows_iff]
      omega
    refine ⟨by omega, ?_⟩
    intro P H rfc3339 build config mode
    exact warnCertificateExpiry_mono hle hfits build config mode

namespace Sample

/-- The machine ten days before the sample certificates expire. -/
def tenDaysLeft : Host := { host with now := (4102444800 - 10 * 86400) * 1000000000 }

/-- The warnings of a client connector with ten days left, for a number of days. -/
def warnings (build : Build) (days : Int64) : Option (List (Str × Str)) :=
  warnCertificateExpiry uriPki tenDaysLeft (fun _ => none) build
    ((bothModes (str "/v1")).withExpiryWarningDays days) .client

theorem warnings_thirty :
    warnings .wrapping 30 = some [(str "client.pem", str "unknown")] := by decide +kernel

end Sample

/-- The certificate that is reported with the default of 30 days is reported with 365. -/
theorem expiry_warning_iff_year :
    (30 : Int64) ≤ 365 ∧ ∃ warned, Sample.warnings .wrapping 365 = some warned ∧
      (str "client.pem", str "unknown") ∈ warned := by
  have hle : (30 : Int64) ≤ 365 := by decide
  obtain ⟨-, hmono⟩ := (expiry_warning_iff hle).2 (by decide)
  obtain ⟨warned, warned', hwarned, hwarned', hsubset⟩ := hmono Sample.uriPki Sample.tenDaysLeft
    (fun _ => none) .wrapping (Sample.bothModes (str "/v1")) .client
  obtain rfl := Option.some.inj (hwarned.symm.trans Sample.warnings_thirty)
  exact ⟨hle, warned', hwarned', hsubset List.mem_cons_self⟩

/-- One day beyond the bound, the warning about the same certificate is hidden in one kind of build,
and the other kind stops. -/
theorem expiry_warning_hidden :
    (30 : Int64) ≤ 213503982334602 ∧
      validateConfig Sample.uriPki Sample.tenDaysLeft
        ((Sample.bothModes (str "/v1")).withExpiryWarningDays 213503982334602) .client true =
          .ok () ∧
      ThresholdOverflows 213503982334602 ∧
      Sample.warnings .wrapping 30 = some [(str "client.pem", str "unknown")] ∧
      Sample.warnings .wrapping 213503982334602 = some [] ∧
      Sample.warnings .checked 213503982334602 = none := by
  refine ⟨by decide, ?_, by decide, Sample.warnings_thirty, by decide +kernel, by decide +kernel⟩
  rw [validateConfig_withExpiryWarningDays]
  decide +kernel

end TrustConnector
