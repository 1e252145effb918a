import Mathlib.Logic.Function.Basic
import SlmMcpHub.Library.Dict
import SlmMcpHub.Library.Transition

/-!
# The callback listener

`auth/callback.py`: a listener on the machine itself that waits for the one redirect of a login.
Each connection has a handler of its own. It first claims the one slot there is, and only then
reads what has been sent, looks at it, answers and completes the login.

## Main definitions

* `processRequest` — what becomes of the bytes of a connection
* `CallbackServer.step` — a step of a handler
* `OneShot` — one connection completes the login, and the others are told that it is over
* `serveAll` — connections that come one after the other

## Main results

* `oneShot_of_reaches` — however the handlers interleave
* `completes_iff` — whether a redirect completes the login after other connections
-/

namespace SlmMcpHub

namespace OAuth

/-! ### Requests -/

/-- `AuthorizationCodeResult` -/
structure AuthorizationCodeResult where
  code : String
  state : Option String
  iss : Option String
deriving DecidableEq

/-- The library functions that take a request apart. -/
structure UrlLib where
  /-- The path and the query of `urlparse(url)`, unless it raises. -/
  urlparse : String → Option (String × String)
  /-- `parse_qs(query, keep_blank_values=False)` -/
  parseQs : String → Dict String (List String)

/-- `_MAX_REQUEST_BYTES` -/
def maxRequestBytes : ℕ := 8192

/-- `_ALLOWED_PATHS` -/
def allowedPaths : List String := ["/callback", "/"]

/-- What becomes of the bytes of a connection. -/
inductive Verdict where
  | reject (status : ℕ)
  | accept (result : AuthorizationCodeResult)
  | raises
deriving DecidableEq

/-- `raw.decode("latin-1")` -/
def decodeLatin1 (raw : List UInt8) : List Char := raw.map fun byte => Char.ofNat byte.toNat

/-- `request_str.split("\r\n", 1)[0]` -/
def firstLine : List Char → List Char
  | [] => []
  | '\r' :: '\n' :: _ => []
  | c :: rest => c :: firstLine rest

/-- `_first` -/
def first (params : Dict String (List String)) (key : String) : Option String :=
  match params.get? key with
  | some (value :: _) => if value = "" then none else some value
  | _ => none

variable (U : UrlLib)

/-- `_process_request`, from the bytes on -/
def processRequest (raw : List UInt8) : Verdict :=
  if raw.length > maxRequestBytes then .reject 413
  else
    match (firstLine (decodeLatin1 raw)).splitOn ' ' with
    | method :: rawPath :: _ =>
      if String.ofList method ≠ "GET" then .reject 405
      else
        match U.urlparse (String.ofList rawPath) with
        | none => .raises
        | some (path, query) =>
          if path ∉ allowedPaths then .reject 404
          else
            let params := U.parseQs query
            .accept { code := (first params "code").getD "", state := first params "state",
                      iss := first params "iss" }
    | _ => .reject 400

/-! ### Handlers -/

/-- Where the handler of a connection is. -/
inductive Conn where
  /-- The connection has not come. -/
  | absent
  /-- The handler has not begun. -/
  | accepted
  /-- At `await asyncio.wait_for(reader.read(…), 10)`, with the slot claimed. -/
  | reading
  | answered (status : ℕ)
  /-- Closed without an answer. -/
  | failed
deriving DecidableEq

/-- The future the login waits for. -/
inductive ResultFuture where
  | pending
  | result (value : AuthorizationCodeResult)
  | exception
  | cancelled
deriving DecidableEq

/-- `self._result.done()` -/
def ResultFuture.done : ResultFuture → Bool
  | .pending => false
  | _ => true

/-- `CallbackServer`, its connections, what has been read from each, and every `set_result`. -/
structure CallbackServer where
  used : Bool
  result : ResultFuture
  conn : ℕ → Conn
  received : ℕ → Option (List UInt8)
  completions : List (ℕ × AuthorizationCodeResult)

/-- What the reader of a connection comes to. -/
inductive ReadOutcome where
  | data (raw : List UInt8)
  | timeout
  | raises
  /-- The handler is cancelled. -/
  | cancelled

/-- What happens next. -/
inductive CallbackAct where
  | accept (c : ℕ)
  /-- The handler runs up to its reading; nothing comes between within `_one_shot_lock`. -/
  | start (c : ℕ)
  | read (c : ℕ) (outcome : ReadOutcome)
  /-- `callback_handler` times out. -/
  | giveUp

namespace CallbackServer

/-- After `__aenter__` -/
def init : CallbackServer where
  used := false
  result := .pending
  conn _ := .absent
  received _ := none
  completions := []

/-- A handler is somewhere else. -/
def setConn (s : CallbackServer) (c : ℕ) (conn : Conn) : CallbackServer :=
  { s with conn := Function.update s.conn c conn }

/-- An exception ends in `_handle_connection`. -/
def fail (s : CallbackServer) (c : ℕ) : CallbackServer :=
  { s.setConn c .failed with result := if s.result.done then s.result else .exception }

/-- The redirect is answered, and then the login is completed if it still waits. -/
def complete (s : CallbackServer) (c : ℕ) (value : AuthorizationCodeResult) : CallbackServer :=
  if s.result.done then s.setConn c (.answered 200)
  else { s.setConn c (.answered 200) with
          result := .result value, completions := s.completions ++ [(c, value)] }

/-- The handler goes on with the bytes it has read. -/
def handle (s : CallbackServer) (c : ℕ) (raw : List UInt8) : CallbackServer :=
  let s := { s with received := Function.update s.received c (some raw) }
  match processRequest U raw with
  | .reject status => s.setConn c (.answered status)
  | .accept value => s.complete c value
  | .raises => s.fail c

/-- One step of the handlers. -/
def step (s : CallbackServer) : CallbackAct → Option CallbackServer
  | .accept c => if s.conn c = .absent then some (s.setConn c .accepted) else none
  | .start c =>
    if s.conn c = .accepted then
      if s.used then some (s.setConn c (.answered 410))
      else some { s.setConn c .reading with used := true }
    else none
  | .read c outcome =>
    if s.conn c = .reading then
      match outcome with
      | .data raw => some (s.handle U c raw)
      | .timeout => some (s.setConn c (.answered 408))
      | .raises => some (s.fail c)
      | .cancelled => some (s.setConn c .failed)
    else none
  | .giveUp => some { s with result := if s.result.done then s.result else .cancelled }

end CallbackServer

/-! ### One shot -/

/-- The handler of a connection has begun. -/
def Conn.Begun (conn : Conn) : Prop := conn ≠ .absent ∧ conn ≠ .accepted

/-- A connection has claimed the slot. -/
def Claimed (s : CallbackServer) (c : ℕ) : Prop := (s.conn c).Begun ∧ s.conn c ≠ .answered 410

/-- One connection is answered 200, and the login is completed once, with what that connection has
sent. Every other connection is told that the login is over, as soon as its handler begins. -/
structure OneShot (s : CallbackServer) : Prop where
  answered : ∀ c c', s.conn c = .answered 200 → s.conn c' = .answered 200 → c = c'
  once : s.completions.length ≤ 1
  own : ∀ c value, (c, value) ∈ s.completions → s.conn c = .answered 200 ∧
    ∃ raw, s.received c = some raw ∧ processRequest U raw = .accept value
  result : ∀ value, s.result = .result value → ∃ c, (c, value) ∈ s.completions
  gone : ∀ c c', Claimed s c → c' ≠ c → (s.conn c').Begun → s.conn c' = .answered 410
  begins : ∀ c c', Claimed s c → s.conn c' = .accepted →
    s.step U (.start c') = some (s.setConn c' (.answered 410))

/-- The slot is claimed by one connection at most, and the login is completed by that one. -/
structure CallbackServer.Inv (s : CallbackServer) : Prop where
  used : ∀ c, (s.conn c).Begun → s.used = true
  claimed : ∀ c c', Claimed s c → Claimed s c' → c = c'
  pending : s.completions ≠ [] → ∃ value, s.result = .result value
  once : s.completions.length ≤ 1
  own : ∀ c value, (c, value) ∈ s.completions → s.conn c = .answered 200 ∧
    ∃ raw, s.received c = some raw ∧ processRequest U raw = .accept value
  result : ∀ value, s.result = .result value → ∃ c, (c, value) ∈ s.completions

namespace CallbackServer

variable {U} {s s' : CallbackServer} {c : ℕ} {conn : Conn}

@[simp] theorem setConn_conn_self : (s.setConn c conn).conn c = conn := Function.update_self ..

theorem Inv.init : Inv U CallbackServer.init where
  used _ h := absurd rfl h.1
  claimed _ _ h := absurd rfl h.1.1
  pending h := absurd rfl h
  once := Nat.zero_le _
  own _ _ := nofun
  result _ := nofun

/-- A future that is settled with no result, unless it is done, has the results it had. -/
theorem settle_eq_result_iff {future : ResultFuture} (hfuture : ∀ value, future ≠ .result value)
    (value : AuthorizationCodeResult) :
    (if s.result.done then s.result else future) = .result value ↔ s.result = .result value := by
  cases hresult : s.result with
  | pending => exact iff_of_false (hfuture value) nofun
  | _ => exact Iff.rfl

/-- A handler that reads goes on without completing the login. -/
theorem Inv.goOn (h : Inv U s) (hreading : s.conn c = .reading)
    (hconn : s'.conn = Function.update s.conn c conn) (hused : s'.used = s.used)
    (hreceived : ∀ c', c' ≠ c → s'.received c' = s.received c')
    (hcompletions : s'.completions = s.completions)
    (hresult : ∀ value, s'.result = .result value ↔ s.result = .result value) : Inv U s' := by
  have hother : ∀ {c'}, c' ≠ c → s'.conn c' = s.conn c' := by
    intro c' hne
    rw [hconn, Function.update_of_ne hne]
  have hbegun : ∀ {c'}, (s'.conn c').Begun → (s.conn c').Begun := by
    intro c' hc'
    by_cases hne : c' = c
    · rw [hne, hreading]
      exact ⟨nofun, nofun⟩
    · rwa [hother hne] at hc'
  have hclaimed : ∀ {c'}, Claimed s' c' → Claimed s c' := by
    rintro c' ⟨hc', hne410⟩
    refine ⟨hbegun hc', ?_⟩
    by_cases hne : c' = c
    · rw [hne, hreading]
      nofun
    · rwa [hother hne] at hne410
  refine ⟨fun c' hc' => hused ▸ h.used c' (hbegun hc'),
    fun c₁ c₂ h₁ h₂ => h.claimed c₁ c₂ (hclaimed h₁) (hclaimed h₂), fun hne => ?_,
    hcompletions ▸ h.once, fun c' value hmem => ?_, fun value hvalue => ?_⟩
  · obtain ⟨value, hvalue⟩ := h.pending (hcompletions ▸ hne)
    exact ⟨value, (hresult value).mpr hvalue⟩
  · obtain ⟨hanswered, raw, hraw, haccept⟩ := h.own c' value (hcompletions ▸ hmem)
    -- The connection that has completed the login no longer reads.
    have hne : c' ≠ c := by
      rintro rfl
      rw [hreading] at hanswered
      cases hanswered
    exact ⟨(hother hne).trans hanswered, raw, (hreceived c' hne).trans hraw, haccept⟩
  · obtain ⟨c', hmem⟩ := h.result value ((hresult value).mp hvalue)
    exact ⟨c', hcompletions ▸ hmem⟩

/-- A handler that reads completes the login. -/
theorem Inv.completed (h : Inv U s) (hreading : s.conn c = .reading) {raw : List UInt8}
    {value : AuthorizationCodeResult} (haccept : processRequest U raw = .accept value)
    (hdone : s.result.done = false) :
    Inv U { s with conn := Function.update s.conn c (.answered 200), result := .result value
                   received := Function.update s.received c (some raw)
                   completions := s.completions ++ [(c, value)] } := by
  have hempty : s.completions = [] := by
    by_contra hne
    obtain ⟨value', hvalue'⟩ := h.pending hne
    rw [hvalue'] at hdone
    cases hdone
  -- But for the login it goes on like any other.
  have hgone : Inv U { s with conn := Function.update s.conn c (.answered 200)
                              received := Function.update s.received c (some raw) } :=
    h.goOn hreading rfl rfl (fun c' hne => Function.update_of_ne hne ..) rfl fun _ => Iff.rfl
  refine ⟨hgone.used, hgone.claimed, fun _ => ⟨value, rfl⟩, ?_, fun c' value' hmem => ?_,
    fun value' hvalue' => ?_⟩
  · rw [hempty]
    exact Nat.le_refl 1
  · rw [hempty, List.nil_append, List.mem_singleton] at hmem
    obtain ⟨rfl, rfl⟩ := Prod.mk.inj hmem
    exact ⟨Function.update_self .., raw, Function.update_self .., haccept⟩
  · obtain rfl := ResultFuture.result.inj hvalue'
    exact ⟨c, List.mem_append_right _ List.mem_cons_self⟩

theorem Inv.handle (h : Inv U s) (hreading : s.conn c = .reading) (raw : List UInt8) :
    Inv U (s.handle U c raw) := by
  rw [CallbackServer.handle]
  cases hverdict : processRequest U raw with
  | reject status =>
    exact h.goOn hreading rfl rfl (fun c' hne => Function.update_of_ne hne ..) rfl fun _ => Iff.rfl
  | raises =>
    exact h.goOn hreading rfl rfl (fun c' hne => Function.update_of_ne hne ..) rfl
      (settle_eq_result_iff nofun)
  | accept value =>
    simp only [complete]
    split_ifs with hdone
    · exact h.goOn hreading rfl rfl (fun c' hne => Function.update_of_ne hne ..) rfl
        fun _ => Iff.rfl
    · exact h.completed hreading hverdict (Bool.eq_false_iff.mpr hdone)

/-- A connection at which no handler reads has another handler state. -/
theorem Inv.setConn (h : Inv U s) (hbefore : ¬ (s.conn c).Begun)
    (hafter : conn.Begun → s.used = true ∧ conn = .answered 410) : Inv U (s.setConn c conn) := by
  have hother : ∀ {c'}, c' ≠ c → (s.setConn c conn).conn c' = s.conn c' :=
    fun hne => Function.update_of_ne hne ..
  have hclaimed : ∀ {c'}, Claimed (s.setConn c conn) c' → Claimed s c' := by
    rintro c' ⟨hbegun, hne410⟩
    by_cases hne : c' = c
    · subst hne
      rw [setConn_conn_self] at hbegun hne410
      exact absurd (hafter hbegun).2 hne410
    · rw [hother hne] at hbegun hne410
      exact ⟨hbegun, hne410⟩
  refine ⟨fun c' hc' => ?_, fun c₁ c₂ h₁ h₂ => h.claimed c₁ c₂ (hclaimed h₁) (hclaimed h₂),
    h.pending, h.once, fun c' value hmem => ?_, h.result⟩
  · by_cases hne : c' = c
    · subst hne
      rw [setConn_conn_self] at hc'
      exact (hafter hc').1
    · rw [hother hne] at hc'
      exact h.used c' hc'
  · obtain ⟨hanswered, hraw⟩ := h.own c' value hmem
    have hne : c' ≠ c := by
      rintro rfl
      exact hbefore (by rw [hanswered]; exact ⟨nofun, nofun⟩)
    exact ⟨(hother hne).trans hanswered, hraw⟩

/-- The first handler that begins claims the slot. -/
theorem Inv.claim (h : Inv U s) (hused : s.used = false) :
    Inv U { s.setConn c .reading with used := true } := by
  -- No handler has begun before.
  have hnone : ∀ c', ¬ (s.conn c').Begun := by
    intro c' hc'
    rw [h.used c' hc'] at hused
    cases hused
  have honly : ∀ {c'}, (Function.update s.conn c .reading c').Begun → c' = c := by
    intro c' hc'
    by_contra hne
    rw [Function.update_of_ne hne] at hc'
    exact hnone c' hc'
  refine ⟨fun _ _ => rfl, fun c₁ c₂ h₁ h₂ => (honly h₁.1).trans (honly h₂.1).symm,
    h.pending, h.once, fun c' value hmem => ?_, h.result⟩
  obtain ⟨hanswered, -⟩ := h.own c' value hmem
  exact absurd (hanswered ▸ ⟨nofun, nofun⟩) (hnone c')

/-- **The invariant** is kept by every step. -/
theorem Inv.step {a : CallbackAct} (h : Inv U s) (hstep : s.step U a = some s') : Inv U s' := by
  cases a with
  | accept c =>
    rw [CallbackServer.step] at hstep
    split_ifs at hstep with habsent
    obtain rfl := Option.some.inj hstep
    refine h.setConn ?_ fun hbegun => absurd rfl hbegun.2
    rw [habsent]
    exact fun hbegun => hbegun.1 rfl
  | start c =>
    rw [CallbackServer.step] at hstep
    split_ifs at hstep with haccepted hused
    · obtain rfl := Option.some.inj hstep
      refine h.setConn ?_ fun _ => ⟨hused, rfl⟩
      rw [haccepted]
      exact fun hbegun => hbegun.2 rfl
    · obtain rfl := Option.some.inj hstep
      exact h.claim (Bool.eq_false_iff.mpr hused)
  | read c outcome =>
    have hreading : s.conn c = .reading := by
      by_contra hne
      simp [CallbackServer.step, hne] at hstep
    simp only [CallbackServer.step, if_pos hreading] at hstep
    cases outcome with
    | data raw => exact Option.some.inj hstep ▸ h.handle hreading raw
    | timeout =>
      exact Option.some.inj hstep ▸ h.goOn hreading rfl rfl (fun _ _ => rfl) rfl fun _ => Iff.rfl
    | raises =>
      exact Option.some.inj hstep ▸ h.goOn hreading rfl rfl (fun _ _ => rfl) rfl
        (settle_eq_result_iff nofun)
    | cancelled =>
      exact Option.some.inj hstep ▸ h.goOn hreading rfl rfl (fun _ _ => rfl) rfl fun _ => Iff.rfl
  | giveUp =>
    obtain rfl := Option.some.inj hstep
    have hresult : ∀ value, (if s.result.done then s.result else .cancelled) = .result value ↔
        s.result = .result value := settle_eq_result_iff nofun
    refine ⟨h.used, h.claimed, fun hne => ?_, h.once, h.own, fun value hvalue =>
      h.result value ((hresult value).mp hvalue)⟩
    obtain ⟨value, hvalue⟩ := h.pending hne
    exact ⟨value, (hresult value).mpr hvalue⟩

end CallbackServer

/-- **One shot.** However the handlers interleave, and whatever has been sent, one connection
completes the login, and the others are told that it is over. -/
theorem oneShot_of_reaches {s : CallbackServer}
    (h : Reaches (CallbackServer.step U) (fun _ _ => True) CallbackServer.init s) :
    OneShot U s := by
  have hinv : CallbackServer.Inv U s := h.invariant .init fun hinv _ hstep => hinv.step hstep
  have h200 : ∀ {c}, s.conn c = .answered 200 → Claimed s c := by
    intro c hc
    rw [Claimed, hc]
    exact ⟨⟨nofun, nofun⟩, by decide⟩
  refine ⟨fun c c' hc hc' => hinv.claimed c c' (h200 hc) (h200 hc'), hinv.once, hinv.own,
    hinv.result, fun c c' hc hne hbegun => ?_, fun c c' hc haccepted => ?_⟩
  · by_contra hne410
    exact hne (hinv.claimed c' c ⟨hbegun, hne410⟩ hc)
  · rw [CallbackServer.step, if_pos haccepted, if_pos (hinv.used c hc.1)]

/-- Functions that take one redirect apart. -/
def redirectLib : UrlLib where
  urlparse url :=
    if url = "/callback?code=abc&state=xyz" then some ("/callback", "code=abc&state=xyz") else none
  parseQs query :=
    if query = "code=abc&state=xyz" then ⟨[("code", ["abc"]), ("state", ["xyz"])], by decide⟩
    else Dict.empty

/-- The redirect, as a browser sends it. -/
def redirect : List UInt8 :=
  "GET /callback?code=abc&state=xyz HTTP/1.1\r\n\r\n".toList.map (·.toNat.toUInt8)

/-- Two connections bring the redirect, and the handler of the second begins while the first one
reads. -/
theorem oneShot_redirects : ∃ s : CallbackServer,
    playFrom (CallbackServer.step redirectLib) (fun _ _ => true) CallbackServer.init
      [.accept 0, .accept 1, .start 0, .start 1, .read 0 (.data redirect)] = some s ∧
      s.conn 0 = .answered 200 ∧ s.conn 1 = .answered 410 ∧ OneShot redirectLib s := by
  have hplays : ((playFrom (CallbackServer.step redirectLib) (fun _ _ => true) CallbackServer.init
      [.accept 0, .accept 1, .start 0, .start 1, .read 0 (.data redirect)]).map
        fun s => (s.conn 0, s.conn 1)) = some (.answered 200, .answered 410) := by
    decide +kernel
  obtain ⟨s, hs, hconns⟩ := Option.map_eq_some_iff.mp hplays
  obtain ⟨h₀, h₁⟩ := Prod.mk.inj hconns
  exact ⟨s, hs, h₀, h₁, oneShot_of_reaches redirectLib
    (reaches_of_playFrom (fun _ _ _ => trivial) .start hs)⟩

/-! ### Stray connections -/

namespace CallbackServer

/-- A connection comes and goes; a step that cannot be taken is not. -/
def serve (s : CallbackServer) (c : ℕ) (outcome : ReadOutcome) : CallbackServer :=
  [.accept c, .start c, .read c outcome].foldl (fun s a => (s.step U a).getD s) s

/-- Connections come and go one after the other. -/
def serveAll (s : CallbackServer) (c : ℕ) : List ReadOutcome → CallbackServer
  | [] => s
  | outcome :: outcomes => (s.serve U c outcome).serveAll (c + 1) outcomes

end CallbackServer

/-- After these connections a request is answered 200 and completes the login. -/
def Completes (before : List ReadOutcome) (raw : List UInt8) (value : AuthorizationCodeResult) :
    Prop :=
  let s := (CallbackServer.init.serveAll U 0 before).serve U before.length (.data raw)
  s.conn before.length = .answered 200 ∧ s.result = .result value

namespace CallbackServer

variable {U} {s : CallbackServer} {c : ℕ}

theorem setConn_setConn (conn conn' : Conn) :
    (s.setConn c conn).setConn c conn' = s.setConn c conn' := by
  simp [CallbackServer.setConn]

/-- The listener whose slot is claimed turns away whoever comes. -/
theorem serve_of_used (hused : s.used = true) (habsent : s.conn c = .absent)
    (outcome : ReadOutcome) : s.serve U c outcome = s.setConn c (.answered 410) := by
  have haccept : s.step U (.accept c) = some (s.setConn c .accepted) := if_pos habsent
  have hstart : (s.setConn c .accepted).step U (.start c) =
      some ((s.setConn c .accepted).setConn c (.answered 410)) := by
    simp only [CallbackServer.step, setConn_conn_self, if_true]
    exact if_pos hused
  have hread : (s.setConn c (.answered 410)).step U (.read c outcome) = none := by
    simp [CallbackServer.step]
  simp only [serve, List.foldl, haccept, hstart, Option.getD_some, setConn_setConn, hread,
    Option.getD_none]

/-- The first connection that comes is read. -/
theorem serve_of_not_used (hused : s.used = false) (habsent : s.conn c = .absent)
    (outcome : ReadOutcome) : s.serve U c outcome =
      (CallbackServer.step U { s.setConn c .reading with used := true } (.read c outcome)).getD
        { s.setConn c .reading with used := true } := by
  have haccept : s.step U (.accept c) = some (s.setConn c .accepted) := if_pos habsent
  have hstart : (s.setConn c .accepted).step U (.start c) =
      some { (s.setConn c .accepted).setConn c .reading with used := true } := by
    simp only [CallbackServer.step, setConn_conn_self, if_true]
    exact if_neg (by rw [CallbackServer.setConn, hused]; exact Bool.false_ne_true)
  simp only [serve, List.foldl, haccept, hstart, Option.getD_some, setConn_setConn]

/-- A handler that reads moves no other handler, and does not free the slot. -/
theorem read_frame {s' : CallbackServer} {outcome : ReadOutcome}
    (hstep : s.step U (.read c outcome) = some s') :
    s'.used = s.used ∧ ∀ c', c' ≠ c → s'.conn c' = s.conn c' := by
  have hreading : s.conn c = .reading := by
    by_contra hne
    simp [CallbackServer.step, hne] at hstep
  simp only [CallbackServer.step, if_pos hreading] at hstep
  have hmoved : ∀ conn c', c' ≠ c → Function.update s.conn c conn c' = s.conn c' :=
    fun conn c' hne => Function.update_of_ne hne ..
  cases outcome with
  | data raw =>
    obtain rfl := Option.some.inj hstep
    rw [CallbackServer.handle]
    cases processRequest U raw with
    | reject status => exact ⟨rfl, hmoved _⟩
    | raises => exact ⟨rfl, hmoved _⟩
    | accept value =>
      simp only [complete]
      split_ifs
      · exact ⟨rfl, hmoved _⟩
      · exact ⟨rfl, hmoved _⟩
  | timeout => exact Option.some.inj hstep ▸ ⟨rfl, hmoved _⟩
  | raises => exact Option.some.inj hstep ▸ ⟨rfl, hmoved _⟩
  | cancelled => exact Option.some.inj hstep ▸ ⟨rfl, hmoved _⟩

/-- Whatever the first connection brings, the slot is claimed after it. -/
theorem serve_claims (hused : s.used = false) (habsent : s.conn c = .absent)
    (outcome : ReadOutcome) : (s.serve U c outcome).used = true ∧
      ∀ c', c' ≠ c → (s.serve U c outcome).conn c' = s.conn c' := by
  rw [serve_of_not_used hused habsent]
  have hother : ∀ c', c' ≠ c → (s.setConn c .reading).conn c' = s.conn c' :=
    fun c' hne => Function.update_of_ne hne ..
  cases hstep : CallbackServer.step U { s.setConn c .reading with used := true }
      (.read c outcome) with
  | none => exact ⟨rfl, hother⟩
  | some s' =>
    obtain ⟨hused', hconn⟩ := read_frame hstep
    exact ⟨hused', fun c' hne => (hconn c' hne).trans (hother c' hne)⟩

/-- Once the slot is claimed it stays so, and no connection comes before its turn. -/
theorem serveAll_of_used : ∀ (outcomes : List ReadOutcome) {s : CallbackServer} {c : ℕ},
    s.used = true → (∀ c', c ≤ c' → s.conn c' = .absent) →
      (s.serveAll U c outcomes).used = true ∧
        ∀ c', c + outcomes.length ≤ c' → (s.serveAll U c outcomes).conn c' = .absent := by
  intro outcomes
  induction outcomes with
  | nil => exact fun hused habsent => ⟨hused, habsent⟩
  | cons outcome outcomes ih =>
    intro s c hused habsent
    rw [serveAll, serve_of_used hused (habsent c (Nat.le_refl c))]
    have hrest : ∀ c', c + 1 ≤ c' → (s.setConn c (.answered 410)).conn c' = .absent := by
      intro c' hle
      have hne : c' ≠ c := by omega
      exact (Function.update_of_ne hne ..).trans (habsent c' (by omega))
    obtain ⟨hused', habsent'⟩ := ih (s := s.setConn c (.answered 410)) (c := c + 1) hused hrest
    exact ⟨hused', fun c' hle => habsent' c' (by rw [List.length_cons] at hle; omega)⟩

end CallbackServer

/-- **A redirect completes the login** just when no connection has come before it. -/
theorem completes_iff {raw : List UInt8} {value : AuthorizationCodeResult}
    (haccept : processRequest U raw = .accept value) (before : List ReadOutcome) :
    Completes U before raw value ↔ before = [] := by
  constructor
  · rintro ⟨hanswered, -⟩
    cases before with
    | nil => rfl
    | cons outcome outcomes =>
      obtain ⟨hused, hconn⟩ :=
        CallbackServer.serve_claims (U := U) (s := .init) (c := 0) rfl rfl outcome
      have hfree : ∀ c', 1 ≤ c' → (CallbackServer.init.serve U 0 outcome).conn c' = .absent :=
        fun c' hle => hconn c' (by omega)
      obtain ⟨hused', habsent⟩ := CallbackServer.serveAll_of_used outcomes hused hfree
      rw [CallbackServer.serveAll, CallbackServer.serve_of_used hused'
        (habsent _ (by rw [List.length_cons]; omega)), CallbackServer.setConn_conn_self]
        at hanswered
      cases hanswered
  · rintro rfl
    rw [Completes, CallbackServer.serveAll, CallbackServer.serve_of_not_used rfl rfl]
    simp only [CallbackServer.step, CallbackServer.setConn_conn_self, if_true, Option.getD_some,
      CallbackServer.handle, haccept]
    exact ⟨rfl, rfl⟩

theorem completes_redirect :
    Completes redirectLib [] redirect { code := "abc", state := some "xyz", iss := none } :=
  (completes_iff redirectLib (by decide +kernel) []).mpr rfl

/-- A connection that is closed without data is answered 400, and after it the redirect is turned
away. -/
theorem not_completes_after_empty :
    processRequest redirectLib [] = .reject 400 ∧
    processRequest redirectLib redirect =
      .accept { code := "abc", state := some "xyz", iss := none } ∧
    ¬ Completes redirectLib [.data []] redirect
      { code := "abc", state := some "xyz", iss := none } := by
  refine ⟨by decide +kernel, by decide +kernel, ?_⟩
  rintro ⟨hanswered, -⟩
  revert hanswered
  decide +kernel

end OAuth

end SlmMcpHub
