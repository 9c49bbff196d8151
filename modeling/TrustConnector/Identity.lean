/-
**Certificates and the identity of a peer.**

The certificate layer of the connector: loading certificates and keys, the checks made of a leaf
certificate and of a CA certificate, and the extraction of the peer's identity from the subject
alternative names of its leaf.

PEM and X.509 parsing, hashing, key matching and chain verification are library functions.  They
are the fields of `Pki`, each a function of its input.  Files, environment variables and the clock
are the fields of `Host`.

Main definitions:

* `Pki`, `Host` — the libraries and the machine;
* `validateLeafCertificate`, `validateCaCertificate` — what validation asks of certificate files;
* `PeerIdentity`, `extractPeerIdentityFromDer` — the identity of a peer, with the kind of name it
  was taken from.

Main results:

* `extractPeerIdentityFromDer_eq_ok_iff` — **when a leaf yields an identity, and which**;
* `toAsciiLowercase_sha256Hex` — a fingerprint is written in lower case.
-/

import TrustConnector.Config
import TrustConnector.Fallible

set_option relaxedAutoImplicit false
set_option autoImplicit false

namespace TrustConnector

open Text Fallible

/-! ### The libraries and the machine -/

/-- A subject alternative name. -/
inductive GeneralName where
  | uri (value : Str)
  | dnsName (value : Str)
  /-- Any other kind of name. -/
  | other
  deriving DecidableEq, Repr

/-- The two extended key usages that are looked at. -/
structure ExtendedKeyUsage where
  clientAuth : Bool
  serverAuth : Bool
  deriving DecidableEq, Repr

/-- What is read from a parsed certificate.  An extension may be malformed, absent or present. -/
structure X509 where
  /-- Seconds since the epoch. -/
  notBefore : ℤ
  notAfter : ℤ
  extendedKeyUsage : Except Str (Option ExtendedKeyUsage)
  subjectAlternativeName : Except Str (Option (List GeneralName))
  /-- Whether the certificate is a CA. -/
  basicConstraints : Except Str (Option Bool)
  /-- Whether the key may sign certificates. -/
  keyUsage : Except Str (Option Bool)

/-- A root store: the certificates that were added to it, in order. -/
abbrev RootCertStore := List Str

/-- The cryptographic libraries.  Certificates and keys are their DER bytes. -/
structure Pki where
  pemCerts : Str → Except Str (List Str)
  pemPrivateKey : Str → Except Str (Option Str)
  /-- Whether a key belongs to a certificate chain. -/
  withSingleCert : List Str → Str → Except Str Unit
  parseX509 : Str → Except Str X509
  sha256 : Str → Str
  /-- Whether a certificate can be added to a root store. -/
  addRoot : Str → Except Str Unit
  /-- Whether a client verifier can be built from a root store. -/
  buildVerifier : RootCertStore → Except Str Unit
  /-- Chain verification, of the leaf and the intermediates, at a time in seconds. -/
  verifyClientCert : RootCertStore → Str → List Str → ℕ → Except Str Unit

/-- The machine the connector runs on. -/
structure Host where
  /-- The contents of a file. -/
  openFile : Str → Except Str Str
  pathExists : Str → Bool
  /-- The permission bits of a file. -/
  fileMode : Str → Option ℕ
  /-- An environment variable, if it is set and is text. -/
  envVar : Str → Option Str
  auditKeyHasherFromEnv : Str → Except Str Unit
  /-- The system clock, in nanoseconds since the epoch. -/
  now : ℤ
  /-- The clock of the chain verifier, in seconds. -/
  unixNow : ℕ

variable (P : Pki) (H : Host)

/-! ### Loading and checking certificates -/

inductive EkUsage where
  | clientAuth
  | serverAuth
  deriving DecidableEq, Repr

def EkUsage.display : EkUsage → Str
  | .clientAuth => str "clientAuth"
  | .serverAuth => str "serverAuth"

def loadCerts (path : Str) : Except Str (List Str) := do
  let contents ← H.openFile path
  (P.pemCerts contents).mapError fun err => str "failed to parse certificate PEM: " ++ err

def loadPrivateKey (path : Str) : Except Str Str := do
  let contents ← H.openFile path
  let key ← (P.pemPrivateKey contents).mapError fun err =>
    str "failed to parse private key PEM: " ++ err
  okOr (str "private key PEM did not contain a supported private key") key

def parseCertDer (der : Str) : Except Str X509 :=
  (P.parseX509 der).mapError fun err => str "failed to parse certificate DER: " ++ err

/-- A time of a certificate as a reading of the system clock. -/
def asSystemTime (unix : ℤ) : ℤ :=
  if 0 ≤ unix then unix * 1000000000 else -(-unix * 1000000000)

def validateTime (cert : X509) : Except Str Unit :=
  if H.now < asSystemTime cert.notBefore then .error (str "certificate is not valid yet")
  else if asSystemTime cert.notAfter < H.now then .error (str "certificate is expired")
  else .ok ()

def ekuMatches (eku : ExtendedKeyUsage) : EkUsage → Bool
  | .clientAuth => eku.clientAuth
  | .serverAuth => eku.serverAuth

def leafHasEku (cert : X509) (usage : EkUsage) : Except Str Bool := do
  match ← cert.extendedKeyUsage with
  | none => .ok false
  | some eku => .ok (ekuMatches eku usage)

def validateLeafCertificate (certPath keyPath : Str) (usage : EkUsage) : Except Str Unit := do
  match ← loadCerts P H certPath with
  | [] => .error (str "certificate file contains no certificates")
  | leaf :: rest =>
      let key ← loadPrivateKey P H keyPath
      (P.withSingleCert (leaf :: rest) key).mapError fun err =>
        str "private key does not match certificate: " ++ err
      let cert ← parseCertDer P leaf
      validateTime H cert
      let hasEku ← leafHasEku cert usage
      ensure hasEku (str "leaf certificate must assert Extended Key Usage " ++ usage.display)

/-- The text for a CA file with several certificates. -/
def severalCaCertificates : Str :=
  str "trust anchor PEM must contain exactly one CA certificate; use separate trust_anchors entries"

def loadSingleCaCert (path : Str) : Except Str Str := do
  match ← loadCerts P H path with
  | [] => .error (str "CA file contains no certificates")
  | [cert] => .ok cert
  | _ :: _ :: _ => .error severalCaCertificates

def validateCaCertificate (path : Str) : Except Str Unit := do
  let der ← loadSingleCaCert P H path
  let cert ← parseCertDer P der
  validateTime H cert
  match ← cert.basicConstraints with
  | some true => .ok ()
  | some false => .error (str "trust anchor is not a CA certificate")
  | none => .error (str "trust anchor missing basic constraints")
  match ← cert.keyUsage with
  | some keyCertSign =>
      ensure keyCertSign (str "trust anchor key usage does not allow certificate signing")
  | none => .ok ()

/-! ### The identity of a peer -/

/-- The kind of name an identity was taken from. -/
inductive IdentityKind where
  | uriSan
  | dnsSan
  deriving DecidableEq, Repr

structure PeerIdentity where
  value : Str
  kind : IdentityKind
  fingerprintSha256 : Str
  deriving DecidableEq, Repr

/-- A byte in two lower-case hexadecimal digits. -/
def hexByte (b : UInt8) : Str := [lowerByte (Percent.hexDigit (b / 16)),
  lowerByte (Percent.hexDigit (b % 16))]

def sha256Hex (bytes : Str) : Str := (P.sha256 bytes).flatMap hexByte

/-- The first URI name with the SPIFFE scheme. -/
def spiffeUri : List GeneralName → Option Str
  | [] => none
  | .uri value :: names => if spiffeScheme <+: value then some value else spiffeUri names
  | _ :: names => spiffeUri names

/-- The first DNS name. -/
def firstDnsName : List GeneralName → Option Str
  | [] => none
  | .dnsName value :: _ => some value
  | _ :: names => firstDnsName names

/-- The name that becomes the identity, with its kind. -/
def selectIdentity (names : List GeneralName) (allowDnsFallback : Bool) :
    Option (Str × IdentityKind) :=
  match spiffeUri names with
  | some value => some (value, .uriSan)
  -- a DNS name is looked at only if no name is a SPIFFE URI
  | none => if allowDnsFallback then (firstDnsName names).map fun value => (value, .dnsSan) else none

/-- **The identity of a peer**, from the DER bytes of its leaf certificate. -/
def extractPeerIdentityFromDer (certDer : Str) (allowDnsFallback : Bool) :
    Except Str PeerIdentity := do
  let cert ← parseCertDer P certDer
  validateTime H cert
  let hasEku ← leafHasEku cert .clientAuth
  ensure hasEku (str "client certificate missing clientAuth EKU")
  let san ← cert.subjectAlternativeName
  let names ← okOr (str "certificate has no subject alternative name") san
  let selected ← okOr (str "certificate has no acceptable URI SAN identity")
    (selectIdentity names allowDnsFallback)
  return { value := selected.1, kind := selected.2, fingerprintSha256 := sha256Hex P certDer }

/-- **When a leaf yields an identity, and which**: the certificate parses, is valid now, is meant
for clients, and one of its alternative names is selected. -/
theorem extractPeerIdentityFromDer_eq_ok_iff {certDer : Str} {allow : Bool} {id : PeerIdentity} :
    extractPeerIdentityFromDer P H certDer allow = .ok id ↔
      ∃ cert names, P.parseX509 certDer = .ok cert ∧ validateTime H cert = .ok () ∧
        leafHasEku cert .clientAuth = .ok true ∧
        cert.subjectAlternativeName = .ok (some names) ∧
        selectIdentity names allow = some (id.value, id.kind) ∧
        id.fingerprintSha256 = sha256Hex P certDer := by
  obtain ⟨value, kind, fingerprint⟩ := id
  simp only [extractPeerIdentityFromDer, parseCertDer, chain_eq_ok, mapError_ok_iff, ensure_eq_ok,
    okOr_eq_ok]
  constructor
  · rintro ⟨cert, hparse, ⟨⟩, htime, hasEku, heku, ⟨⟩, rfl, san, hsan, names, rfl, selected, hsel, hid⟩
    simp only [pure, Except.pure, Except.ok.injEq, PeerIdentity.mk.injEq] at hid
    obtain ⟨rfl, rfl, rfl⟩ := hid
    exact ⟨cert, names, hparse, htime, heku, hsan, hsel, rfl⟩
  · rintro ⟨cert, names, hparse, htime, heku, hsan, hsel, rfl⟩
    exact ⟨cert, hparse, (), htime, true, heku, (), rfl, some names, hsan, names, rfl,
      (value, kind), hsel, rfl⟩

theorem lowerByte_hexByte (b : UInt8) : (hexByte b).map lowerByte = hexByte b := by
  have := Percent.of_all_bytes (p := fun b => decide ((hexByte b).map lowerByte = hexByte b))
    (by decide +kernel) b
  exact of_decide_eq_true this

/-- A fingerprint is written in lower case. -/
theorem toAsciiLowercase_sha256Hex (bytes : Str) :
    toAsciiLowercase (sha256Hex P bytes) = sha256Hex P bytes := by
  rw [toAsciiLowercase, sha256Hex, List.map_flatMap]
  exact List.flatMap_congr fun b _ => lowerByte_hexByte b

/-! ### A small infrastructure for concrete runs -/

namespace Sample

/-- Certificates are read off their own bytes: `names` gives the alternative names of each, every
certificate is valid until 2100 and may be used as a CA, and a chain verifies when it contains one
of the roots. -/
def pki (names : Str → List GeneralName) : Pki where
  pemCerts := fun contents => .ok [contents]
  pemPrivateKey := fun contents => .ok (some contents)
  withSingleCert := fun _ _ => .ok ()
  parseX509 := fun der => .ok
    { notBefore := 0, notAfter := 4102444800
      extendedKeyUsage := .ok (some ⟨true, true⟩)
      subjectAlternativeName := .ok (some (names der))
      basicConstraints := .ok (some true)
      keyUsage := .ok (some true) }
  sha256 := fun bytes => (bytes ++ List.replicate 32 0).take 32
  addRoot := fun _ => .ok ()
  buildVerifier := fun roots =>
    if roots.isEmpty then .error (str "no root trust anchors were provided") else .ok ()
  verifyClientCert := fun roots leaf intermediates _ =>
    if roots.any fun root => root ∈ leaf :: intermediates then .ok ()
    else .error (str "unknown issuer")

/-- Every file exists and contains its own path; every variable is set to `secret`. -/
def host : Host where
  openFile := fun path => .ok path
  pathExists := fun _ => true
  fileMode := fun _ => some 0o600
  envVar := fun _ => some (str "secret")
  auditKeyHasherFromEnv := fun _ => .ok ()
  now := 1800000000000000000
  unixNow := 1800000000

end Sample

end TrustConnector
