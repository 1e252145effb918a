import SlmMcpHub.Server.HttpServer
import SlmMcpHub.Session.SessionManager

/-!
# The sessions of the endpoint

`session/manager.py` twice over. The endpoint has its texts as they are on the wire, keeps of a
session what its answers depend on, and reads the clock once for an operation. What it does is what
the manager with its clock does, as long as the clock stands still during the operation.

## Main definitions

* `SessionManager.onWire` — the sessions as the endpoint keeps them

## Main results

* `SessionManager.exec_getSession_onWire`, `SessionManager.exec_createSession_onWire` — the two
  operations of the endpoint are those of the manager
-/

namespace SlmMcpHub

namespace Session

/-- The texts on the wire. -/
def wireText : String ↪ CodeText := ⟨CodeText.ofString, CodeText.ofString_injective⟩

/-- A session as the endpoint keeps it. -/
def SessionInfo.onWire (info : SessionInfo) : Http.SessionInfo :=
  ⟨wireText info.sessionId, wireText info.clientName, info.connectedAt, info.lastActivity⟩

namespace SessionManager

/-- The sessions as the endpoint keeps them. -/
def onWire (m : SessionManager) : Http.SessionManager where
  sessions := m.sessions.mapEntries wireText SessionInfo.onWire
  maxSessions := m.maxSessions.toNat
  timeoutSeconds := m.timeoutSeconds

variable {clock : ℕ → ℚ} {m : SessionManager} {now : ℚ}

theorem get?_onWire (id : String) :
    m.onWire.sessions.get? (wireText id) = (m.sessions.get? id).map SessionInfo.onWire :=
  Dict.get?_mapEntries ..

theorem onWire_remove (id : String) : (m.remove id).2.onWire =
    { m.onWire with sessions := m.onWire.sessions.erase (wireText id) } := by
  rw [remove_snd, onWire, Dict.mapEntries_erase]
  rfl

theorem onWire_store (info : SessionInfo) : (m.store info).onWire =
    { m.onWire with
      sessions := m.onWire.sessions.set (wireText info.sessionId) info.onWire } := by
  rw [store, onWire, Dict.mapEntries_set]
  rfl

/-! ### Expired sessions -/

/-- The expired sessions are those that are expired at one time. -/
theorem expired_of_still {l : List (String × SessionInfo)}
    (hstill : ∀ n, m.reads ≤ n → n < m.reads + l.length → clock n = now) :
    (m.expired clock l).1 =
      (l.filter fun e => m.timeoutSeconds < now - e.2.lastActivity).map Prod.fst := by
  induction l generalizing m with
  | nil => rfl
  | cons e l ih =>
    obtain ⟨sid, info⟩ := e
    have hnow : clock m.reads = now := hstill _ (Nat.le_refl _) (by simp)
    have hrest : (expired clock { m with reads := m.reads + 1 } l).1 =
        (l.filter fun e => m.timeoutSeconds < now - e.2.lastActivity).map Prod.fst := by
      refine ih fun n hge hlt => hstill n ((Nat.le_succ _).trans hge) ?_
      rw [List.length_cons]
      show n < m.reads + (l.length + 1)
      have hlt : n < m.reads + 1 + l.length := hlt
      omega
    rw [expired_cons, isExpired_eq, hnow]
    by_cases hlate : m.timeoutSeconds < now - info.lastActivity <;> simp [hlate, hrest]

theorem onWire_cleanupExpired
    (hstill : ∀ n, m.reads ≤ n → n < m.reads + m.sessions.size → clock n = now) :
    (m.cleanupExpired clock).onWire = m.onWire.cleanupExpired now := by
  have hexpired : ((m.onWire.sessions.entries.filter fun e => m.onWire.isExpired now e.2).map
      Prod.fst) = (m.expired clock m.sessions.entries).1.map wireText := by
    rw [expired_of_still hstill]
    show (List.filter _ (m.sessions.entries.map _)).map _ = _
    rw [List.filter_map, List.map_map, List.map_map]
    rfl
  rw [cleanupExpired_eq, Http.SessionManager.cleanupExpired, hexpired]
  show Http.SessionManager.mk _ _ _ = Http.SessionManager.mk _ _ _
  rw [Dict.mapEntries_foldl_erase]
  rfl

/-! ### The operations -/

/-- **The endpoint finds what the manager finds**, and leaves what it leaves. -/
theorem exec_getSession_onWire (hnow : clock m.reads = now) (id : String) :
    Http.exec (Http.SessionManager.getSession now (wireText id)) m.onWire =
      (.ok ((m.getSession clock id).1.map SessionInfo.onWire),
        (m.getSession clock id).2.onWire) := by
  rw [Http.SessionManager.exec_getSession, Http.SessionManager.lookup, get?_onWire]
  cases hid : m.sessions.get? id with
  | none => simp only [getSession, hid, Option.map_none]
  | some info =>
    have hlate : m.onWire.isExpired now info.onWire =
        decide (m.timeoutSeconds < now - info.lastActivity) := rfl
    simp only [getSession, hid, isExpired_eq, hnow, Option.map_some, hlate]
    by_cases hexpired : m.timeoutSeconds < now - info.lastActivity
    · simp only [hexpired, decide_true, if_true, onWire_remove, Option.map_none]
      rfl
    · simp only [hexpired, decide_false, Bool.false_eq_true, if_false, Option.map_some]
      rfl

theorem idOr_wireText (uuid : String) (sessionId : Option String) :
    Http.SessionManager.idOr (wireText uuid) (sessionId.map wireText) =
      wireText (idOr uuid sessionId) := by
  cases sessionId with
  | none => rfl
  | some id =>
    have hempty : wireText id = [] ↔ id = "" := wireText.injective.eq_iff' rfl
    rw [Option.map_some, Http.SessionManager.idOr, idOr]
    by_cases hid : id = ""
    · rw [if_pos hid, if_pos (hempty.mpr hid)]
    · rw [if_neg hid, if_neg (hempty.not.mpr hid)]

/-- **The endpoint creates what the manager creates**, and refuses what it refuses. -/
theorem exec_createSession_onWire
    (hstill : ∀ n, m.reads ≤ n → n ≤ m.reads + m.sessions.size → clock n = now)
    (clientName projectPath uuid : String) (permissions : Option (List (String × Json)))
    (sessionId : Option String) :
    Http.exec (Http.SessionManager.createSession now (wireText uuid) (wireText clientName)
        (sessionId.map wireText)) m.onWire =
      (((m.createSession clock clientName projectPath permissions sessionId uuid).1.map
          wireText).mapError fun _ => ⟨"ValueError"⟩,
        (m.createSession clock clientName projectPath permissions sessionId uuid).2.onWire) := by
  have hclean : (m.cleanupExpired clock).onWire = m.onWire.cleanupExpired now :=
    onWire_cleanupExpired fun n hge hlt => hstill n hge hlt.le
  have hreads : clock (m.cleanupExpired clock).reads = now := by
    rw [cleanupExpired_eq]
    exact hstill _ (Nat.le_add_right _ _) (Nat.le_refl _)
  have hfull : m.onWire.isFull now = decide
      ((m.cleanupExpired clock).maxSessions ≤ (m.cleanupExpired clock).sessions.size) := by
    have hsize : (m.cleanupExpired clock).onWire.sessions.size =
        (m.cleanupExpired clock).sessions.size := Dict.size_mapEntries ..
    rw [Http.SessionManager.isFull, ← hclean, hsize, (sheds_cleanupExpired clock m).maxSessions]
    exact decide_eq_decide.mpr Int.toNat_le
  by_cases hroom : (m.cleanupExpired clock).maxSessions ≤ (m.cleanupExpired clock).sessions.size
  · rw [Http.SessionManager.exec_createSession_of_isFull (hfull.trans (decide_eq_true hroom)),
      createSession, if_pos hroom, ← hclean]
    rfl
  · rw [Http.SessionManager.exec_createSession (hfull.trans (decide_eq_false hroom)),
      createSession, if_neg hroom, ← hclean, idOr_wireText]
    simp only [time, hreads, onWire_store]
    rfl

end SessionManager

end Session

end SlmMcpHub
