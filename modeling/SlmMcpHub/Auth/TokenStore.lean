import SlmMcpHub.Library.Json

/-!
# The token store

`auth/token_store.py`: one account of the keychain has an entry for the tokens and one for the
registration of the client, which names the issuer. Tokens go when a registration with another
issuer comes, if the registration that is there can be read.

## Main definitions

* `Keyring`, `getTokens`, `setTokens`, `getClientInfo`, `setClientInfo`, `logout`
* `TokenOp`, `afterOps` — runs, in which entries may be damaged
* `Bound` — the tokens that are returned belong to the issuer the account is bound to
* `Readable` — what a registration has to find for that

## Main results

* `lastIssuer_of_getClientInfo` — a registration that can be read is the last one
* `bound_iff` — when the tokens stay with their issuer throughout a run
-/

namespace SlmMcpHub

namespace OAuth

/-! ### Entries -/

/-- The text of an entry: JSON or not. -/
inductive Entry where
  | notJson
  | json (value : Json)

/-- A model of the SDK: what is dumped is validated to what it was. -/
structure Codec (α : Type) where
  /-- `value.model_dump(mode="json")` -/
  dump : α → Json
  /-- `model_validate`, unless it raises -/
  validate : Json → Option α
  validate_dump : ∀ a, validate (dump a) = some a

/-- `_PAYLOAD_VERSION` -/
def payloadVersion : Json := .int 1

namespace Codec

variable {α : Type} (C : Codec α)

/-- The payload of a value. -/
def encode (a : α) : Entry := .json (.obj [("v", payloadVersion), ("data", C.dump a)])

/-- `_decode_token` and `_decode_client_info`; a payload that is no object makes them raise
`AttributeError`. -/
def decode : Entry → Except Unit (Option α)
  | .notJson => .ok none
  | .json (.obj entries) =>
    let payload := Json.toDict entries
    if Json.SameValue ((payload.get? "v").getD .null) payloadVersion then
      .ok ((payload.get? "data").bind C.validate)
    else .ok none
  | .json _ => .error ()

@[simp] theorem decode_encode (a : α) : C.decode (C.encode a) = .ok (some a) := by
  have hv : (Json.toDict [("v", payloadVersion), ("data", C.dump a)]).get? "v" =
      some payloadVersion := rfl
  have hdata : (Json.toDict [("v", payloadVersion), ("data", C.dump a)]).get? "data" =
      some (C.dump a) := rfl
  simp only [encode, decode, hv, hdata, Option.getD_some,
    if_pos (Json.SameValue.refl payloadVersion), Option.bind_some, C.validate_dump]

/-- An entry no value can be read from. -/
def Damaged : Type := { entry : Entry // ∀ a, C.decode entry ≠ .ok (some a) }

end Codec

/-! ### The store -/

/-- `OAuthToken` and `OAuthClientInformationFull`, with the issuer of a registration. -/
structure Sdk where
  Token : Type
  ClientInfo : Type
  token : Codec Token
  clientInfo : Codec ClientInfo
  issuer : ClientInfo → Option String

/-- The two entries of an account. -/
structure Keyring where
  tokens : Option Entry
  clientInfo : Option Entry

/-- Nothing is stored. -/
def Keyring.empty : Keyring where
  tokens := none
  clientInfo := none

variable (S : Sdk)

/-- `get_tokens` -/
def getTokens (k : Keyring) : Except Unit (Option S.Token) :=
  match k.tokens with
  | none => .ok none
  | some entry => S.token.decode entry

/-- `set_tokens` -/
def setTokens (tokens : S.Token) (k : Keyring) : Keyring :=
  { k with tokens := some (S.token.encode tokens) }

/-- `get_client_info` -/
def getClientInfo (k : Keyring) : Except Unit (Option S.ClientInfo) :=
  match k.clientInfo with
  | none => .ok none
  | some entry => S.clientInfo.decode entry

/-- `set_client_info`; nothing is changed when reading the old registration raises. -/
def setClientInfo (info : S.ClientInfo) (k : Keyring) : Keyring :=
  match getClientInfo S k with
  | .error _ => k
  | .ok existing =>
    let k :=
      match existing with
      | some old => if S.issuer old ≠ S.issuer info then { k with tokens := none } else k
      | none => k
    { k with clientInfo := some (S.clientInfo.encode info) }

/-- `logout` -/
def logout (_ : Keyring) : Keyring := .empty

/-! ### Runs -/

/-- What is done with an account, or happens to it. -/
inductive TokenOp where
  | setTokens (tokens : S.Token)
  | setClientInfo (info : S.ClientInfo)
  | getTokens
  | getClientInfo
  | logout
  /-- A stored payload becomes corrupt or of an unknown version. -/
  | damageTokens (entry : S.token.Damaged)
  | damageClientInfo (entry : S.clientInfo.Damaged)

variable {S}

/-- The account after an operation. -/
def TokenOp.apply (k : Keyring) : TokenOp S → Keyring
  | .setTokens tokens => OAuth.setTokens S tokens k
  | .setClientInfo info => OAuth.setClientInfo S info k
  | .getTokens | .getClientInfo => k
  | .logout => OAuth.logout k
  | .damageTokens entry => { k with tokens := k.tokens.map fun _ => entry.1 }
  | .damageClientInfo entry => { k with clientInfo := k.clientInfo.map fun _ => entry.1 }

/-- The account after a run. -/
def afterOps (ops : List (TokenOp S)) : Keyring := ops.foldl TokenOp.apply .empty

/-- The issuer of a registration that is set. -/
def TokenOp.issuer? : TokenOp S → Option (Option String)
  | .setClientInfo info => some (S.issuer info)
  | _ => none

/-- The issuer of the last registration of a run. -/
def lastIssuer (ops : List (TokenOp S)) : Option (Option String) :=
  ops.reverse.findSome? TokenOp.issuer?

/-- Tokens were last set here in a run. -/
structure SetAt (ops before : List (TokenOp S)) (tokens : S.Token) (since : List (TokenOp S)) :
    Prop where
  split : ops = before ++ .setTokens tokens :: since
  last : ∀ tokens', .setTokens tokens' ∉ since

/-- The tokens that are returned are those last set, and every registration since has named the
issuer of the last registration before. -/
def Bound (ops : List (TokenOp S)) : Prop :=
  ∀ tokens, getTokens S (afterOps ops) = .ok (some tokens) →
    ∃ before since, SetAt ops before tokens since ∧ ∀ issuer, lastIssuer before = some issuer →
      ∀ info, .setClientInfo info ∈ since → S.issuer info = issuer

/-- If there are tokens, the registration there is can be read; or the issuer is the one the tokens
belong to. -/
def Readable (ops : List (TokenOp S)) (info : S.ClientInfo) : Prop :=
  ∀ tokens, getTokens S (afterOps ops) = .ok (some tokens) →
    (∃ old, getClientInfo S (afterOps ops) = .ok (some old)) ∨
      ∀ before since, SetAt ops before tokens since → ∀ issuer, lastIssuer before = some issuer →
        S.issuer info = issuer

/-! ### The last registration -/

theorem afterOps_concat (ops : List (TokenOp S)) (op : TokenOp S) :
    afterOps (ops ++ [op]) = op.apply (afterOps ops) := by
  rw [afterOps, List.foldl_append]
  rfl

theorem lastIssuer_concat (ops : List (TokenOp S)) (op : TokenOp S) :
    lastIssuer (ops ++ [op]) = op.issuer?.or (lastIssuer ops) := by
  rw [lastIssuer, List.reverse_append, List.reverse_singleton, List.singleton_append,
    List.findSome?_cons]
  cases op.issuer? with
  | none => rfl
  | some issuer => rfl

/-- A registration that can be read after one has been set is that one. -/
theorem getClientInfo_setClientInfo {k : Keyring} {info info' : S.ClientInfo}
    (h : getClientInfo S (setClientInfo S info k) = .ok (some info')) : info' = info := by
  cases hold : getClientInfo S k with
  | error e =>
    simp only [setClientInfo, hold] at h
    cases h
  | ok existing =>
    rw [setClientInfo, hold] at h
    have hset := (S.clientInfo.decode_encode info).symm.trans h
    exact (Option.some.inj (Except.ok.inj hset)).symm

/-- A registration that can be read is the last one. -/
theorem lastIssuer_of_getClientInfo {ops : List (TokenOp S)} : ∀ {info : S.ClientInfo},
    getClientInfo S (afterOps ops) = .ok (some info) → lastIssuer ops = some (S.issuer info) := by
  induction ops using List.reverseRecOn with
  | nil => exact fun h => by cases h
  | append_singleton ops op ih =>
    intro info h
    rw [afterOps_concat] at h
    rw [lastIssuer_concat]
    cases op with
    | setTokens tokens => exact ih h
    | getTokens => exact ih h
    | getClientInfo => exact ih h
    | damageTokens entry => exact ih h
    | logout => cases h
    | damageClientInfo entry =>
      cases hclient : (afterOps ops).clientInfo with
      | none => simp [TokenOp.apply, getClientInfo, hclient] at h
      | some old =>
        simp only [TokenOp.apply, getClientInfo, hclient, Option.map_some] at h
        exact absurd h (entry.2 info)
    | setClientInfo info' =>
      rw [getClientInfo_setClientInfo h]
      rfl

/-- The tokens survive a registration unless it finds another issuer. -/
theorem getTokens_setClientInfo_iff {k : Keyring} {info : S.ClientInfo} {tokens : S.Token} :
    getTokens S (setClientInfo S info k) = .ok (some tokens) ↔
      getTokens S k = .ok (some tokens) ∧
        ∀ old, getClientInfo S k = .ok (some old) → S.issuer old = S.issuer info := by
  rw [setClientInfo]
  cases hold : getClientInfo S k with
  | error e => simp
  | ok existing =>
    cases existing with
    | none => simp [getTokens]
    | some old =>
      by_cases hissuer : S.issuer old = S.issuer info
      · simp [hissuer, getTokens]
      · simp [hissuer, getTokens]

/-! ### Since the tokens were set -/

namespace SetAt

variable {ops before before' since since' : List (TokenOp S)} {tokens tokens' : S.Token}

/-- The tokens were last set at one place only. -/
theorem unique (h : SetAt ops before tokens since) (h' : SetAt ops before' tokens' since') :
    before = before' ∧ since = since' := by
  have heq := h.split.symm.trans h'.split
  obtain ⟨rest, rfl, hrest⟩ | ⟨rest, rfl, hrest⟩ := List.append_eq_append_iff.mp heq
  · cases rest with
    | nil => exact ⟨(List.append_nil before).symm, (List.cons.inj hrest).2⟩
    | cons op rest =>
      refine absurd ?_ (h.last tokens')
      rw [(List.cons.inj hrest).2]
      exact List.mem_append_right _ List.mem_cons_self
  · cases rest with
    | nil => exact ⟨List.append_nil before', (List.cons.inj hrest).2.symm⟩
    | cons op rest =>
      refine absurd ?_ (h'.last tokens)
      rw [(List.cons.inj hrest).2]
      exact List.mem_append_right _ List.mem_cons_self

theorem concat (h : SetAt ops before tokens since) (op : TokenOp S)
    (hop : ∀ tokens', op ≠ .setTokens tokens') :
    SetAt (ops ++ [op]) before tokens (since ++ [op]) where
  split := by rw [h.split, List.append_assoc, List.cons_append]
  last tokens' hmem := by
    rcases List.mem_append.mp hmem with hmem | hmem
    · exact h.last tokens' hmem
    · exact hop tokens' (List.mem_singleton.mp hmem).symm

/-- The last issuer is the one from before, as long as all since have named that. -/
theorem lastIssuer_eq {issuer : Option String} (h : SetAt ops before tokens since)
    (hbefore : lastIssuer before = some issuer)
    (hsince : ∀ info, .setClientInfo info ∈ since → S.issuer info = issuer) :
    lastIssuer ops = some issuer := by
  rw [h.split]
  clear h
  induction since using List.reverseRecOn with
  | nil =>
    rw [lastIssuer_concat, hbefore]
    rfl
  | append_singleton since op ih =>
    have hinit := ih fun info hmem => hsince info (List.mem_append_left _ hmem)
    rw [← List.cons_append, ← List.append_assoc, lastIssuer_concat, hinit]
    cases op with
    | setClientInfo info =>
      rw [TokenOp.issuer?, hsince info (List.mem_append_right _ List.mem_cons_self)]
      rfl
    | _ => rfl

end SetAt

/-! ### The tokens stay with their issuer -/

/-- An operation that leaves tokens at most as they are, and is no registration. -/
theorem Bound.concat {ops : List (TokenOp S)} {op : TokenOp S} (h : Bound ops)
    (htokens : ∀ tokens, op ≠ .setTokens tokens) (hinfo : ∀ info, op ≠ .setClientInfo info)
    (hkeeps : ∀ tokens, getTokens S (op.apply (afterOps ops)) = .ok (some tokens) →
      getTokens S (afterOps ops) = .ok (some tokens)) : Bound (ops ++ [op]) := by
  intro tokens hget
  rw [afterOps_concat] at hget
  obtain ⟨before, since, hset, hissuer⟩ := h tokens (hkeeps tokens hget)
  refine ⟨before, since ++ [op], hset.concat op htokens, fun issuer hbefore info hmem => ?_⟩
  rcases List.mem_append.mp hmem with hmem | hmem
  · exact hissuer issuer hbefore info hmem
  · exact absurd (List.mem_singleton.mp hmem).symm (hinfo info)

/-- **One operation.** The tokens stay with their issuer just when a registration finds one it can
read, or names that issuer. -/
theorem bound_concat_iff {ops : List (TokenOp S)} (h : Bound ops) (op : TokenOp S) :
    Bound (ops ++ [op]) ↔ ∀ info, op = .setClientInfo info → Readable ops info := by
  cases op with
  | setTokens tokens =>
    refine iff_of_true (fun tokens' hget => ?_) nofun
    rw [afterOps_concat] at hget
    have heq : tokens = tokens' := by simpa [TokenOp.apply, setTokens, getTokens] using hget
    exact ⟨ops, [], ⟨by rw [heq], fun _ => List.not_mem_nil⟩, fun _ _ _ hmem =>
      absurd hmem List.not_mem_nil⟩
  | getTokens => exact iff_of_true (h.concat nofun nofun fun _ => id) nofun
  | getClientInfo => exact iff_of_true (h.concat nofun nofun fun _ => id) nofun
  | logout => exact iff_of_true (h.concat nofun nofun nofun) nofun
  | damageClientInfo entry => exact iff_of_true (h.concat nofun nofun fun _ => id) nofun
  | damageTokens entry =>
    refine iff_of_true (h.concat nofun nofun fun tokens hget => ?_) nofun
    cases hstored : (afterOps ops).tokens with
    | none => simp [TokenOp.apply, getTokens, hstored] at hget
    | some old =>
      simp only [TokenOp.apply, getTokens, hstored, Option.map_some] at hget
      exact absurd hget (entry.2 tokens)
  | setClientInfo info =>
    constructor
    · rintro hbound info' heq tokens hget
      obtain rfl := TokenOp.setClientInfo.inj heq
      by_cases hold : ∃ old, getClientInfo S (afterOps ops) = .ok (some old)
      · exact .inl hold
      · -- Nothing tells that the issuer is another one, and the tokens are still there.
        refine .inr fun before since hset issuer hbefore => ?_
        obtain ⟨before', since', hset', hissuer⟩ := hbound tokens <| by
          rw [afterOps_concat]
          exact getTokens_setClientInfo_iff.mpr ⟨hget, fun old h => absurd ⟨old, h⟩ hold⟩
        obtain ⟨rfl, rfl⟩ := (hset.concat (.setClientInfo info) nofun).unique hset'
        exact hissuer issuer hbefore info (List.mem_append_right _ List.mem_cons_self)
    · intro hreadable tokens hget
      rw [afterOps_concat] at hget
      obtain ⟨hkept, hsame⟩ := getTokens_setClientInfo_iff.mp hget
      obtain ⟨before, since, hset, hissuer⟩ := h tokens hkept
      refine ⟨before, since ++ [.setClientInfo info], hset.concat (.setClientInfo info) nofun,
        fun issuer hbefore info' hmem => ?_⟩
      rcases List.mem_append.mp hmem with hmem | hmem
      · exact hissuer issuer hbefore info' hmem
      obtain rfl := TokenOp.setClientInfo.inj (List.mem_singleton.mp hmem)
      obtain ⟨old, hold⟩ | hnamed := hreadable info' rfl tokens hkept
      · have hlast := lastIssuer_of_getClientInfo hold
        rw [hset.lastIssuer_eq hbefore (hissuer issuer hbefore)] at hlast
        rw [← hsame old hold, Option.some.inj hlast]
      · exact hnamed before since hset issuer hbefore

/-- **The tokens stay with their issuer** throughout a run just when every registration in it finds
one it can read where there are tokens, or names the issuer of the tokens. -/
theorem bound_iff (ops : List (TokenOp S)) :
    (∀ before, before <+: ops → Bound before) ↔
      ∀ before info, before ++ [.setClientInfo info] <+: ops → Readable before info := by
  constructor
  · intro hbound before info hprefix
    have hbefore := hbound before ((List.prefix_append before _).trans hprefix)
    exact (bound_concat_iff hbefore _).mp (hbound _ hprefix) info rfl
  · intro hreadable before
    induction before using List.reverseRecOn with
    | nil => exact fun _ => nofun
    | append_singleton before op ih =>
      intro hprefix
      refine (bound_concat_iff (ih ((List.prefix_append before _).trans hprefix)) op).mpr ?_
      rintro info rfl
      exact hreadable before info hprefix

/-- Texts stand for tokens, and for registrations by their issuers. -/
def textSdk : Sdk where
  Token := String
  ClientInfo := String
  token := ⟨.str, fun value => match value with | .str s => some s | _ => none, fun _ => rfl⟩
  clientInfo := ⟨.str, fun value => match value with | .str s => some s | _ => none, fun _ => rfl⟩
  issuer := some

/-- The account is registered with one issuer, and then with another one. -/
def moved : List (TokenOp textSdk) :=
  [.setClientInfo "https://a.example", .setTokens "token", .setClientInfo "https://b.example"]

/-- The tokens go with the registration they belong to. -/
theorem bound_iff_moved : getTokens textSdk (afterOps (moved.take 2)) = .ok (some "token") ∧
    getTokens textSdk (afterOps moved) = .ok none ∧
      getClientInfo textSdk (afterOps moved) = .ok (some "https://b.example") ∧
        ∀ before, before <+: moved → Bound before := by
  refine ⟨rfl, rfl, rfl, (bound_iff moved).mpr fun before info hprefix => ?_⟩
  rcases before with _ | ⟨x, _ | ⟨y, _ | ⟨z, before⟩⟩⟩
  · exact nofun
  · simp [moved] at hprefix
  · obtain ⟨rfl, rfl, -⟩ : x = .setClientInfo "https://a.example" ∧ y = .setTokens "token" ∧
        TokenOp.setClientInfo info = .setClientInfo "https://b.example" := by
      simpa [moved] using hprefix
    exact fun tokens _ => .inl ⟨"https://a.example", rfl⟩
  · simp [moved] at hprefix

/-- The tokens of one issuer outlive the registration with it when that has become corrupt. -/
theorem not_bound_corrupt : ¬ Bound (S := textSdk) [.setClientInfo "https://a.example",
    .setTokens "token", .damageClientInfo ⟨.notJson, nofun⟩,
    .setClientInfo "https://b.example"] := by
  intro h
  obtain ⟨before, since, hset, hissuer⟩ := h "token" rfl
  have hsplit : SetAt (S := textSdk) [.setClientInfo "https://a.example", .setTokens "token",
      .damageClientInfo ⟨.notJson, nofun⟩, .setClientInfo "https://b.example"]
      [.setClientInfo "https://a.example"] "token"
      [.damageClientInfo ⟨.notJson, nofun⟩, .setClientInfo "https://b.example"] := ⟨rfl, by simp⟩
  obtain ⟨rfl, rfl⟩ := hset.unique hsplit
  have hsame := hissuer (some "https://a.example") rfl "https://b.example" (by simp)
  revert hsame
  decide

end OAuth

end SlmMcpHub
