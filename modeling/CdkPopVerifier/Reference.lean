import CdkPopVerifier.Assumptions
import CdkPopVerifier.Credentials
import CdkPopVerifier.Mints
import Mathlib.Logic.Encodable.Basic
import Mathlib.Logic.Equiv.List

/-!
# A concrete instance of the dependencies

`Reference.cashu` gives every external function a value.  Tokens are looked up in a table by their
text; keyset ids of version 1 are resolved by their prefix, those of version 0 are taken as they
are, and units are trimmed, matched and displayed in lower case, as in `cashu` on ASCII texts.  The
lemmas show that the instance satisfies the assumptions.
-/

namespace CdkPopVerifier.Reference

open Denominations Interaction Text

/-- The built-in units. -/
inductive BuiltinUnit where
  | sat
  | msat
  | usd
  | eur
  deriving DecidableEq

/-- A token: the unit and the mint that it names and its proofs, with keyset ids as written. -/
structure Token where
  unit : Option (CurrencyUnit BuiltinUnit)
  mint : MintUrl
  proofs : Proofs
  deriving DecidableEq

/-- `Id::from_short_keyset_id`, for a short id of version 1: the first keyset whose id starts with the
short one after the version.  The slice of a keyset id that is shorter panics. -/
def longId (short : List Char) : List (KeySetInfo BuiltinUnit) → ExceptT String Option Id
  | [] => throw "Unknown short keyset id"
  | k :: keysets =>
    if (k.id.hex.toList.drop 2).length < short.length then .mk none
    else if short.isPrefixOf (k.id.hex.toList.drop 2) then pure k.id
    else longId short keysets

/-- Resolve a keyset id as written in a token. -/
def resolve (keysets : List (KeySetInfo BuiltinUnit)) (id : Id) : ExceptT String Option Id :=
  if "00".toList.isPrefixOf id.hex.toList then pure id
  else longId (id.hex.toList.drop 2) keysets

/-- Resolve the keyset id of a proof. -/
def resolveProof (keysets : List (KeySetInfo BuiltinUnit)) (p : Proof) :
    ExceptT String Option Proof := do
  let id ← resolve keysets p.keysetId
  return { p with keysetId := id }

def builtinName : BuiltinUnit → String
  | .sat => "SAT"
  | .msat => "MSAT"
  | .usd => "USD"
  | .eur => "EUR"

/-- Lower case, for ASCII letters only. -/
def toLowercase (s : String) : String := String.ofList (s.toList.map Char.toLower)

def builtinOf (name : String) : Option BuiltinUnit :=
  [.sat, .msat, .usd, .eur].find? fun u => toLowercase (builtinName u) = toLowercase name

/-- A unit without the spaces, tabs and line ends around it. -/
def trimUnit (s : String) : String :=
  let isBlank : Char → Bool := fun c => c = ' ' || c = '\t' || c = '\r' || c = '\n'
  String.ofList ((s.toList.dropWhile isBlank).rdropWhile isBlank)

def unitToString : CurrencyUnit BuiltinUnit → String
  | .builtin u => toLowercase (builtinName u)
  | .custom name => toLowercase (trimUnit name)

def unitFromStr (value : String) : CurrencyUnit BuiltinUnit :=
  match builtinOf (trimUnit value) with
  | some u => .builtin u
  | none => .custom (trimUnit value)

instance encodableChar : Encodable Char :=
  .ofLeftInjection Char.toNat (fun n => some (Char.ofNat n)) fun c => by rw [Char.ofNat_toNat]

instance encodableString : Encodable String :=
  .ofLeftInjection String.toList (fun l => some (String.ofList l)) fun s => by
    rw [String.ofList_toList]

/-- A payment request as a tuple. -/
def requestTuple (w : RequestFields String) :
    Option String × Option ℕ × Option String × Option Bool × List String × Option String ×
      List String × Option String :=
  (w.paymentId, w.amount.map UInt64.toNat, w.unit, w.singleUse, w.mints.map MintUrl.url,
    w.description, w.transports.map Transport.text, w.nut10.map Nut10.text)

/-- The payment request with the given tuple. -/
def ofRequestTuple (x : Option String × Option ℕ × Option String × Option Bool × List String ×
    Option String × List String × Option String) : RequestFields String where
  paymentId := x.1
  amount := x.2.1.map UInt64.ofNat
  unit := x.2.2.1
  singleUse := x.2.2.2.1
  mints := x.2.2.2.2.1.map MintUrl.mk
  description := x.2.2.2.2.2.1
  transports := x.2.2.2.2.2.2.1.map Transport.mk
  nut10 := x.2.2.2.2.2.2.2.map Nut10.mk

theorem ofRequestTuple_requestTuple (w : RequestFields String) :
    ofRequestTuple (requestTuple w) = w := by
  obtain ⟨paymentId, amount, unit, singleUse, mints, description, transports, nut10⟩ := w
  simp [ofRequestTuple, requestTuple, Function.comp_def]

/-- The instance in which the tokens with the given texts exist. -/
def cashu (tokens : List (String × Token)) : Cashu BuiltinUnit Token where
  debugStr s := "\"" ++ s ++ "\""
  debugUnit
    | .builtin u => builtinName u
    | .custom name => name
  debugMints mints := String.intercalate ", " (mints.map MintUrl.url)
  base64Error _ := "invalid base64"
  utf8Error _ := "invalid utf-8"
  jsonError _ := "invalid JSON"
  amountError := "Amount Overflow"
  headerValueAccepts s := s.toList.all fun c => 0x20 ≤ c.toNat && c.toNat < 0x7f
  tokenFromStr s :=
    match tokens.lookup s with
    | some token => .ok token
    | none => .error "Unsupported token"
  unit := Token.unit
  mintUrl token := .ok token.mint
  proofs token keysets := (token.proofs.mapM (resolveProof keysets)).run
  unblindMessage c _ _ := .ok c
  lengthsError := "Lengths of promises, rs, and secrets must be equal"
  noKeyError := "Could not get proofs"
  unitToString := unitToString
  unitFromStr value := .ok (unitFromStr value)
  encodeRequest w := "creqA" ++ String.ofList (List.replicate (Encodable.encode (requestTuple w)) '1')
  decodeRequest s :=
    match Encodable.decode (s.length - 5) with
    | some x => .ok (ofRequestTuple x)
    | none => .error "invalid payment request"

theorem cashu_requestRoundTrip (tokens : List (String × Token)) :
    (cashu tokens).RequestRoundTrip := by
  intro w
  have hlen : ("creqA" ++ String.ofList (List.replicate (Encodable.encode (requestTuple w)) '1')).length
      - 5 = Encodable.encode (requestTuple w) := by
    rw [String.length_append, String.length_ofList, String.length_ofList, List.length_replicate]
    exact Nat.add_sub_cancel_left 5 _
  simp only [cashu, hlen, Encodable.encodek, ofRequestTuple_requestTuple]

theorem cashu_parsesUnits (tokens : List (String × Token)) : (cashu tokens).ParsesUnits :=
  fun s => ⟨unitFromStr s, rfl⟩

theorem unitFromStr_unitToString (u : BuiltinUnit) :
    unitFromStr (unitToString (.builtin u)) = .builtin u := by
  cases u <;> decide +kernel

theorem cashu_unitNames (tokens : List (String × Token)) : (cashu tokens).UnitNames :=
  fun u => congrArg Except.ok (unitFromStr_unitToString u)

theorem cashu_acceptsVisibleAscii (tokens : List (String × Token)) :
    (cashu tokens).AcceptsVisibleAscii := by
  intro s hs
  simpa [cashu, IsPrintable] using hs

/-- The output for one part of a split. -/
def preMint (id : Id) (i amount : ℕ) : PreMint where
  blindedMessage := ⟨.ofNat amount, id, ⟨"B" ++ i.repr⟩⟩
  secret := ⟨"secret" ++ i.repr⟩
  r := ⟨i.repr⟩

/-- The outputs for the parts of a split, with secrets numbered from `i` on. -/
def outputs (id : Id) : ℕ → List ℕ → PreMintSecrets
  | _, [] => []
  | i, a :: l => preMint id i a :: outputs id (i + 1) l

theorem map_amount_outputs {id : Id} {i : ℕ} {l : List ℕ} (h : ∀ a ∈ l, a < 2 ^ 64) :
    (outputs id i l).map (fun m => m.blindedMessage.amount.toNat) = l := by
  induction l generalizing i with
  | nil => rfl
  | cons a l ih =>
    rw [List.forall_mem_cons] at h
    rw [outputs, List.map_cons, ih h.2]
    exact congrArg (· :: l) (UInt64.toNat_ofNat_of_lt' h.1)

/-- The random draws of a swap, not random at all.  The remainder by a denomination 0 panics. -/
def random : PreMintRandom := fun id total amounts =>
  let parts := split (amounts.reverse.map UInt64.toNat) total.toNat
  if 0 ∈ amounts then none
  else if parts.sum = total.toNat then some (.ok (outputs id 0 parts.reverse))
  else some (.error "Cannot split amount")

theorem map_amount_outputs_split (id : Id) (total : ℕ) (amounts : List Amount) :
    (outputs id 0 (split (amounts.reverse.map UInt64.toNat) total).reverse).map
        (fun m => m.blindedMessage.amount.toNat) =
      (split (amounts.reverse.map UInt64.toNat) total).reverse := by
  apply map_amount_outputs
  intro a ha
  obtain ⟨b, -, rfl⟩ := List.mem_map.1 (mem_of_mem_split (List.mem_reverse.1 ha))
  exact b.toNat_lt

theorem random_totals : random.Totals := by
  intro id total amounts preMint h
  have hsum : (split (amounts.reverse.map UInt64.toNat) total.toNat).sum = total.toNat := by
    by_contra hsum
    simp only [random, if_neg hsum] at h
    split_ifs at h
    cases h
  simp only [random, if_pos hsum] at h
  split_ifs at h
  cases h
  calc Amount.exactSum _
      = (split (amounts.reverse.map UInt64.toNat) total.toNat).reverse.sum := by
        rw [Amount.exactSum, PreMintSecrets.blindedMessages, List.map_map, List.map_map]
        exact congrArg List.sum (map_amount_outputs_split id _ _)
    _ = total.toNat := by rw [List.sum_reverse, hsum]

/-! ## A mint with two units -/

def mint : MintUrl := ⟨"https://mint.example"⟩

def popUnit : CurrencyUnit BuiltinUnit := .custom "pop_1767225600"

def popKeyset : KeySetInfo BuiltinUnit := ⟨⟨"00d4c1f0a7b35e92"⟩, popUnit, true, 0⟩

def satKeyset : KeySetInfo BuiltinUnit := ⟨⟨"009a1f293253e41e"⟩, .builtin .sat, true, 0⟩

/-- A keyset that `popKeyset` has replaced. -/
def retiredKeyset : KeySetInfo BuiltinUnit := ⟨⟨"00ad268c4d1f5826"⟩, popUnit, false, 0⟩

/-- A replaced keyset with an id of version 1. -/
def longIdKeyset : KeySetInfo BuiltinUnit :=
  ⟨⟨"01c352c0b47d42edb764bddf8c53d77b85f057157d92084d9d05e876251ecd8422"⟩, popUnit, false, 0⟩

def keysets : List (KeySetInfo BuiltinUnit) := [satKeyset, popKeyset, retiredKeyset, longIdKeyset]

/-- The keys of every keyset. -/
def keys : Keys := ⟨[(1, ⟨"K1"⟩), (2, ⟨"K2"⟩)], by decide⟩

def requirement : PopRequirement BuiltinUnit where
  unit := popUnit
  mints := [mint]
  amount := 2
  paymentId := none
  description := none
  singleUse := true

/-- A token that names the required unit and has one proof of the given keyset. -/
def token (keyset : KeySetInfo BuiltinUnit) : Token where
  unit := some popUnit
  mint := mint
  proofs := [⟨2, keyset.id, ⟨"input"⟩, ⟨"C"⟩⟩]

/-- The swap that is posted for the token. -/
def posting (keyset : KeySetInfo BuiltinUnit) : Posting BuiltinUnit where
  mint := mint
  keysets := keysets
  proofs := (token keyset).proofs
  swapKeysets := keysets
  active := keyset
  keys := keys
  preMint := outputs keyset.id 0 [2]

/-- The signature of its output. -/
def signatures (keyset : KeySetInfo BuiltinUnit) : List BlindSignature :=
  [⟨2, keyset.id, ⟨"S"⟩⟩]

/-- What the validator makes of the signature. -/
def validated (keyset : KeySetInfo BuiltinUnit) : ValidatedPop BuiltinUnit where
  newProofs := [⟨2, keyset.id, ⟨"secret0"⟩, ⟨"S"⟩⟩]
  mintUrl := mint
  unit := popUnit
  amount := 2

theorem posting_reached {k : KeySetInfo BuiltinUnit} (hk : k ∈ [satKeyset, popKeyset])
    (tokens : List (String × Token)) :
    (posting k).Reached (cashu tokens) random (token k) requirement := by
  rcases List.mem_pair.1 hk with rfl | rfl
  · exact ⟨rfl, rfl, ⟨_, rfl, rfl⟩, rfl⟩
  · exact ⟨rfl, rfl, ⟨_, rfl, rfl⟩, rfl⟩

theorem runs_posting {k : KeySetInfo BuiltinUnit} (hk : k ∈ [satKeyset, popKeyset])
    (tokens : List (String × Token)) :
    Runs (validateHttp (cashu tokens) random (token k) requirement)
      ((posting k).trace (.ok (signatures k))) (.ok (validated k)) :=
  validateHttp_runs_iff.2 ((posting_reached hk tokens).httpRun (.ok (signatures k)))

/-- A mint that signs every output of a swap of unspent inputs, by the secrets that are spent. -/
def mints : Mints BuiltinUnit (List (MintUrl × Secret)) where
  keysets _ _ := .ok keysets
  keys _ _ _ := .ok keys
  swap s m q :=
    if q.inputs.any fun p => s.contains (m, p.secret) then (.error ⟨true, "Token Already Spent"⟩, s)
    else (.ok (q.outputs.map fun o => ⟨o.amount, o.keysetId, ⟨"S"⟩⟩),
      q.inputs.map (fun p => (m, p.secret)) ++ s)
  spent s m x := (m, x) ∈ s
  eq_of_refused {s m q e} h := by
    split_ifs at h ⊢
    rfl
  unspent_of_accepted {s m q sigs} h p hp hspent := by
    split_ifs at h with hany
    exact hany (List.any_eq_true.2 ⟨p, hp, by simpa using hspent⟩)
  spent_iff_of_accepted {s m q sigs} h m' x := by
    split_ifs at h ⊢
    simp [or_comm, eq_comm, and_left_comm]

/-! ## Requests -/

/-- The bytes of a text of ASCII characters. -/
def asciiBytes (s : String) : List UInt8 := s.toList.map fun c => UInt8.ofNat c.toNat

theorem headerToStr_asciiBytes {s : String} (h : ∀ c ∈ s.toList, IsPrintable c) :
    headerToStr (asciiBytes s) = some s := by
  have hbyte : ∀ c ∈ s.toList, (UInt8.ofNat c.toNat).toNat = c.toNat := fun c hc =>
    UInt8.toNat_ofNat_of_lt' (lt_trans (h c hc).2 (by decide))
  have hall : (asciiBytes s).all isVisibleAscii = true := by
    simp only [asciiBytes, List.all_map, List.all_eq_true, Function.comp_apply, isVisibleAscii,
      Bool.or_eq_true, Bool.and_eq_true, decide_eq_true_eq, UInt8.le_iff_toNat_le,
      UInt8.lt_iff_toNat_lt]
    intro c hc
    rw [hbyte c hc]
    exact .inl (h c hc)
  have hmap : (asciiBytes s).map (fun b => Char.ofNat b.toNat) = s.toList := by
    rw [asciiBytes, List.map_map]
    conv_rhs => rw [← List.map_id s.toList]
    refine List.map_congr_left fun c hc => ?_
    rw [Function.comp_apply, hbyte c hc, Char.ofNat_toNat]
    rfl
  rw [headerToStr, if_pos hall, hmap, String.ofList_toList]

/-- A token of the required unit without proofs. -/
def emptyToken : Token := { token popKeyset with proofs := [] }

/-- A token with a short keyset id of version 1 that has one byte more than the ids of version 0. -/
def longToken : Token :=
  { token popKeyset with proofs := [⟨2, ⟨"01c352c0b47d42edb7"⟩, ⟨"input"⟩, ⟨"C"⟩⟩] }

/-- The table of tokens that clients present. -/
def tokens : List (String × Token) := [("cashuBpop", token popKeyset), ("cashuBsat", token satKeyset),
  ("cashuBempty", emptyToken), ("cashuBlong", longToken)]

/-- The credentials of a client that has the token with the given text. -/
def credentials (cashuToken : String) : PaymentCredentials where
  challenge := ⟨"", defaultRealm, cashuMethod, intentCharge, ""⟩
  payload := ⟨cashuToken⟩

theorem parse_spaced_credentials :
    parsePaymentAuthorization (cashu tokens).toTexts ("\u2003" ++ "pAyMeNt" ++ "\t " ++
        encodePaymentCredentials (credentials "\"\\\n") ++ " \n") =
      .ok (credentials "\"\\\n") :=
  (parse_encodePaymentCredentials _).1 "\u2003" "pAyMeNt" "\t " " \n" (credentials "\"\\\n")
    (by decide) (by decide) (by decide) (by decide) (by decide)

/-- A request with the token with the given text. -/
def request (cashuToken : String) : Request BuiltinUnit Unit where
  headers := [("authorization",
    asciiBytes (paymentScheme ++ " " ++ encodePaymentCredentials (credentials cashuToken)))]
  extension := none
  rest := ()

theorem readToken_request {tokens : List (String × Token)} {text : String} {token : Token}
    (h : decodeToken (cashu tokens) text = .ok token) :
    readToken (cashu tokens) (request text) = .ok token := by
  refine (readToken_eq_ok_iff _).2 ⟨_, _, credentials text, rfl, headerToStr_asciiBytes ?_,
    parse_payment_credentials _, h⟩
  intro c hc
  rw [String.toList_append] at hc
  rcases List.mem_append.1 hc with hc | hc
  · exact (by decide : ∀ c ∈ (paymentScheme ++ " ").toList, IsPrintable c) c hc
  · exact isPrintable_of_isSymbol (isSymbol_of_mem_encodePaymentCredentials hc)

/-- A run in which the handler is called, over HTTP. -/
theorem runs_requirePopHttp (uuid : Uuid) (resp : Response) :
    Runs (requirePopHttp (cashu tokens) random requirement uuid (request "cashuBpop"))
      (((posting popKeyset).trace (.ok (signatures popKeyset))).map .inl ++
        [.inr (handlerEvent { request "cashuBpop" with extension := some (validated popKeyset) } resp)])
      resp :=
  requirePopHttp_runs_iff.2 (.handled (readToken_request rfl)
    ((posting_reached (by decide) tokens).httpRun _))

end CdkPopVerifier.Reference
