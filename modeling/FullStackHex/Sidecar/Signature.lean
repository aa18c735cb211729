import FullStackHex.Auth.Service
import FullStackHex.Library.Json
import FullStackHex.Sidecar.Hmac

/-!
`verify_auth_signature` of `auth/src/middleware.rs`: which tuples a signature stands for. That
HMAC-SHA256 has no collision on two payloads is assumed of the two that are compared.
-/

namespace FullStackHex

open Codec JsonText

namespace Sidecar

/-- What is signed. -/
structure SignedTuple where
  userId : String
  email : String
  name : String
  timestamp : UInt64
  deriving DecidableEq

def signatureOf (mac : Mac) (secret : String) (t : SignedTuple) : Except ApiError String :=
  computeAuthSignature mac secret t.userId t.email t.name t.timestamp

def verifyAuthSignature (mac : Mac) (secret : String) (t : SignedTuple) (signature : String) :
    Bool :=
  match signatureOf mac secret t with
  | .error _ => false
  | .ok expected => constantTimeStrEq expected.toList signature.toList

/-- The bytes that are signed for a tuple. -/
def SignedTuple.payload (t : SignedTuple) : List UInt8 :=
  utf8 (identityPayload quote t.userId.toList t.email.toList t.name.toList t.timestamp.toNat)

/-! ## The payload -/

/-- Where a quoted text ends is part of the text. -/
theorem quote_append_inj {s t x y : List Char} (h : quote s ++ x = quote t ++ y) :
    s = t ∧ x = y := by
  have hcons : ∀ u : List Char, quote u = '"' :: (quote u).tail := fun u => rfl
  rw [hcons s, hcons t, List.cons_append, List.cons_append] at h
  have hread := congrArg readText (List.cons.inj h).2
  rw [readText_quote, readText_quote] at hread
  exact Prod.mk.inj (Option.some.inj hread)

theorem timestamp_append_inj {m n : Nat} {x y : List Char}
    (h : (toString (m : Int)).toList ++ literal ",\"user_id\":" ++ x
      = (toString (n : Int)).toList ++ literal ",\"user_id\":" ++ y) : m = n ∧ x = y := by
  have hcomma : ∀ k : Int, ',' ∉ (toString k).toList := fun k =>
    not_mem_toString (by decide) (by decide)
  have hlabel : literal ",\"user_id\":" = ',' :: literal "\"user_id\":" := by decide
  rw [hlabel, List.append_assoc, List.append_assoc, List.cons_append, List.cons_append] at h
  obtain ⟨hdigits, hrest⟩ := append_separator_inj (hcomma m) (hcomma n) h
  refine ⟨?_, List.append_cancel_left hrest⟩
  rw [toList_toString_natCast, toList_toString_natCast] at hdigits
  have hvalue := congrArg (Nat.ofDigitChars 10 · 0) hdigits
  simpa only [Nat.ofDigitChars_ten_toDigits] using hvalue

/-- Different tuples have different payloads, whatever their texts contain. -/
theorem payload_injective : Function.Injective SignedTuple.payload := by
  intro t t' h
  have htext := congrArg String.toList (utf8_injective h)
  simp only [identityPayload, String.toList_ofList, List.append_assoc] at htext
  obtain ⟨hemail, htext⟩ := quote_append_inj (List.append_cancel_left htext)
  obtain ⟨hname, htext⟩ := quote_append_inj (List.append_cancel_left htext)
  have htext := List.append_cancel_left htext
  rw [← List.append_assoc, ← List.append_assoc (toString _).toList] at htext
  obtain ⟨htime, htext⟩ := timestamp_append_inj htext
  obtain ⟨huser, -⟩ := quote_append_inj htext
  cases t
  cases t'
  simp only [SignedTuple.mk.injEq]
  exact ⟨String.toList_inj.mp huser, String.toList_inj.mp hemail, String.toList_inj.mp hname,
    UInt64.toNat_inj.mp htime⟩

/-! ## The signature -/

theorem hexEncode_injective {bytes bytes' : List UInt8} (h : hexEncode bytes = hexEncode bytes') :
    bytes = bytes' := by
  have hdigit : ∀ m < 16, ∀ n < 16, Nat.digitChar m = Nat.digitChar n → m = n := by decide
  replace h := congrArg String.toList h
  simp only [hexEncode, String.toList_ofList] at h
  induction bytes generalizing bytes' with
  | nil =>
      cases bytes' with
      | nil => rfl
      | cons b rest => cases h
  | cons a rest ih =>
      cases bytes' with
      | nil => cases h
      | cons b rest' =>
          simp only [List.flatMap_cons, List.cons_append, List.nil_append, List.cons.injEq] at h
          obtain ⟨hhigh, hlow, hrest⟩ := h
          have ha := a.toNat_lt
          have hb := b.toNat_lt
          have hquot := hdigit _ (show a.toNat / 16 < 16 by omega) _ (by omega) hhigh
          have hmod := hdigit _ (show a.toNat % 16 < 16 by omega) _ (by omega) hlow
          rw [ih hrest, UInt8.toNat_inj.mp (show a.toNat = b.toNat by omega)]

theorem signatureOf_ok_iff {mac : Mac} {secret signature : String} {t : SignedTuple} :
    signatureOf mac secret t = .ok signature ↔
      secret ≠ "" ∧ signature = hexEncode (mac (utf8 secret) t.payload).toList := by
  unfold signatureOf computeAuthSignature
  split
  · rename_i hempty
    refine iff_of_false (fun h => nomatch h) ?_
    rintro ⟨hne, -⟩
    exact hne hempty
  · rename_i hsecret
    rw [Except.ok.injEq]
    exact ⟨fun h => ⟨hsecret, h.symm⟩, fun h => h.2.symm⟩

/-- The only signature that verifies is the one that is computed. -/
theorem verify_iff_signatureOf {mac : Mac} {secret signature : String} {t : SignedTuple} :
    verifyAuthSignature mac secret t signature = true ↔
      signatureOf mac secret t = .ok signature := by
  unfold verifyAuthSignature
  cases hcomputed : signatureOf mac secret t with
  | error e => exact iff_of_false Bool.false_ne_true (fun h => nomatch h)
  | ok expected =>
      simp only [Except.ok.injEq]
      rw [constantTimeStrEq_iff, String.toList_inj]

/-- A signature verifies for the tuple it was computed for, under a secret that is not empty, and
for no other; no other signature verifies. -/
theorem verifyAuthSignature_iff {mac : Mac} {secret : String} {t t' : SignedTuple}
    (hfree : mac (utf8 secret) t.payload = mac (utf8 secret) t'.payload → t.payload = t'.payload) :
    ((∃ signature, signatureOf mac secret t' = .ok signature ∧
        verifyAuthSignature mac secret t signature = true) ↔ t = t' ∧ secret ≠ "") ∧
      (∀ signature, verifyAuthSignature mac secret t signature = true ↔
        signatureOf mac secret t = .ok signature) ∧
      Function.Injective SignedTuple.payload ∧
      ∀ a b, constantTimeStrEq a b = true ↔ a = b := by
  refine ⟨?_, fun signature => verify_iff_signatureOf, payload_injective,
    fun a b => constantTimeStrEq_iff⟩
  constructor
  · rintro ⟨signature, hcomputed, hverified⟩
    rw [verify_iff_signatureOf, signatureOf_ok_iff] at hverified
    rw [signatureOf_ok_iff] at hcomputed
    have hdigest := hexEncode_injective (hverified.2.symm.trans hcomputed.2)
    exact ⟨payload_injective (hfree (Vector.toList_inj.mp hdigest)), hverified.1⟩
  · rintro ⟨rfl, hsecret⟩
    have hcomputed : signatureOf mac secret t
        = .ok (hexEncode (mac (utf8 secret) t.payload).toList) :=
      signatureOf_ok_iff.mpr ⟨hsecret, rfl⟩
    exact ⟨_, hcomputed, verify_iff_signatureOf.mpr hcomputed⟩

namespace Sample

def joseTuple : SignedTuple := ⟨"u1", "a@b.c", "José", 1700000000⟩

def plainTuple : SignedTuple := ⟨"u1", "a@b.c", "Jose", 1700000000⟩

end Sample

theorem verifyAuthSignature_sample :
    ¬ ∃ signature,
      signatureOf FullStackHex.Sample.mac "secret" Sample.plainTuple = .ok signature ∧
        verifyAuthSignature FullStackHex.Sample.mac "secret" Sample.joseTuple signature = true := by
  have hfree : FullStackHex.Sample.mac (utf8 "secret") Sample.joseTuple.payload
      ≠ FullStackHex.Sample.mac (utf8 "secret") Sample.plainTuple.payload := by decide +kernel
  rw [(verifyAuthSignature_iff fun h => absurd h hfree).1]
  decide

end Sidecar

end FullStackHex
