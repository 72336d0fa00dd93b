import ChainReplication.Client.Receipts

/-!
# How often and where a client sends a request

In the turn of a request, which begins after `past`, `receive` brings `during`. The turn waits as long as
no reply counts and the timeouts are at most `resend_num`.
-/

namespace ChainReplication

namespace Turn

open RunningClient

/-- A turn that waits for its reply. -/
structure Waits (c : RunningClient) (past during : List Receipt) (t : Turn) : Prop where
  follows : c.Follows (past ++ during) t.client
  events : t.events = during
  acceptFlag : t.acceptFlag = false
  unanswered : c.beforeReply t.req.reqId past during = during
  retry : t.retry = during.count .timeout
  retry_le : t.retry ≤ c.resendNum
  targets : t.targets.length = 1 + t.retry

/-- A turn that is over, by a reply that counts or by too many timeouts. -/
structure Ended (c : RunningClient) (past during : List Receipt) (t : Turn) : Prop where
  isOver : t.Over
  answered : c.beforeReply t.req.reqId past during ≠ during ∨ c.resendNum < during.count .timeout
  targets : t.targets.length = 1 + min (c.timeouts t.req.reqId past during) c.resendNum

variable {c : RunningClient} {past during : List Receipt} {t u : Turn} {e : Receipt}

lemma Waits.not_over (h : t.Waits c past during) : ¬ t.Over := by
  simp only [Over, h.acceptFlag, h.follows.resendNum, Bool.false_eq_true, false_or, not_lt]
  exact h.retry_le

/-- What has been sent stays as it is when the turn is over. -/
lemma Ended.append (h : t.Ended c past during) : t.Ended c past (during ++ [e]) where
  isOver := h.isOver
  answered := by
    rcases h.answered with hanswered | htimeouts
    · exact Or.inl (beforeReply_append_ne hanswered)
    · right
      rw [List.count_append]
      omega
  targets := by
    by_cases hanswered : c.beforeReply t.req.reqId past during = during
    · -- more than enough timeouts have come, so that one more does not count
      have htimeouts := h.answered.resolve_left (not_not.mpr hanswered)
      have htargets := h.targets
      simp only [timeouts, hanswered] at htargets ⊢
      rw [beforeReply_append]
      split_ifs
      · rw [List.count_append]
        omega
      · rwa [hanswered]
    · rw [timeouts, beforeReply_append_of_ne hanswered]
      exact h.targets

/-- A timeout costs a retry, and may change the target. -/
lemma exists_onTimeout {a : Address} (htarget : t.client.target t.req = some a) :
    ∃ u, t.onTimeout = some u ∧ u.client = t.client ∧ u.req = t.req ∧
      u.acceptFlag = t.acceptFlag ∧ u.events = t.events ++ [.timeout] ∧ u.retry = t.retry + 1 ∧
      u.targets = t.targets ∧
      (t.client.resendNewhead = true → t.retry < t.client.resendNum → u.target = a) := by
  simp only [onTimeout, htarget, Option.map_some]
  split_ifs with hretry hnew
  · exact ⟨_, rfl, rfl, rfl, rfl, rfl, rfl, rfl, by omega⟩
  · exact ⟨_, rfl, rfl, rfl, rfl, rfl, rfl, rfl, fun _ _ => rfl⟩
  · exact ⟨_, rfl, rfl, rfl, rfl, rfl, rfl, rfl, fun h _ => absurd h hnew⟩

/-- What a turn that waits makes of a timeout: it sends once more while retries are left. -/
lemma exists_read_timeout (hover : ¬ t.Over) {a : Address}
    (htarget : t.client.target t.req = some a) :
    ∃ u, t.read .timeout = some u ∧ u.client = t.client ∧ u.req = t.req ∧
      u.acceptFlag = false ∧ u.events = t.events ++ [.timeout] ∧ u.retry = t.retry + 1 ∧
      u.targets = t.targets ++ (if t.retry < t.client.resendNum then [u.target] else []) ∧
      (t.client.resendNewhead = true → t.retry < t.client.resendNum → u.target = a) := by
  simp only [Over, not_or, Bool.not_eq_true, not_lt] at hover
  obtain ⟨u, hu, hclient, hreq, haccept, hevents, hretry, htargets, htarget'⟩ :=
    exists_onTimeout htarget
  have hiff : u.Over ↔ ¬ t.retry < t.client.resendNum := by
    simp only [Over, haccept, hover.1, hclient, hretry, Bool.false_eq_true, false_or]
    omega
  rw [hover.1] at haccept
  by_cases hlt : t.retry < t.client.resendNum
  · refine ⟨u.send, ?_, hclient, hreq, haccept, hevents, hretry, ?_, htarget'⟩
    · rw [read, hu, Option.map_some, if_neg (by simpa [hiff] using hlt)]
    · rw [if_pos hlt, send_targets, htargets]
      rfl
  · refine ⟨u, ?_, hclient, hreq, haccept, hevents, hretry, ?_, htarget'⟩
    · rw [read, hu, Option.map_some, if_pos (hiff.mpr hlt)]
    · rw [if_neg hlt, htargets, List.append_nil]

/-- One result of `receive` in a turn that waits. -/
structure Reads (c : RunningClient) (past during : List Receipt) (t : Turn) (e : Receipt)
    (u : Turn) : Prop where
  read : t.read e = some u
  req : u.req = t.req
  follows : c.Follows (past ++ during ++ [e]) u.client
  turn : u.Waits c past (during ++ [e]) ∨ u.Ended c past (during ++ [e])
  /-- Only a timeout costs a retry or leads to a sending. -/
  idle : e ≠ .timeout → u.retry = t.retry ∧ u.targets = t.targets
  retarget : e = .timeout → u.acceptFlag = false → u.retry ≤ c.resendNum →
    c.resendNewhead = true →
      ∃ a, c.latest t.req (past ++ during) = some a ∧ u.targets = t.targets ++ [a]

/-- A timeout, in a turn that waits. -/
lemma Waits.reads_timeout (h : t.Waits c past during) (hreq : c.KnownBank t.req) :
    ∃ u, t.Reads c past during .timeout u := by
  obtain ⟨a, htarget⟩ := h.follows.exists_target hreq
  obtain ⟨u, hread, hclient, hreq, haccept, hevents, hretry, htargets, htarget'⟩ :=
    exists_read_timeout h.not_over htarget
  have hnum := h.follows.resendNum
  have hfollows : c.Follows (past ++ during ++ [.timeout]) u.client := by
    rw [hclient]
    exact h.follows.append_of_names_eq_none fun _ => rfl
  have hbefore : c.beforeReply t.req.reqId past (during ++ [.timeout]) = during ++ [.timeout] := by
    rw [beforeReply_append, if_pos ⟨h.unanswered, by simp [Accepts, Receipt.reply?]⟩]
  have hcount : u.retry = (during ++ [Receipt.timeout]).count Receipt.timeout := by
    rw [hretry, h.retry, List.count_append, List.count_singleton_self]
  refine ⟨u, hread, hreq, hfollows, ?_, fun h => absurd rfl h, ?_⟩
  · rw [hnum] at htargets
    by_cases hlt : t.retry < c.resendNum
    · left
      exact
        { follows := by rwa [← List.append_assoc]
          events := by rw [hevents, h.events]
          acceptFlag := haccept
          unanswered := by rwa [hreq]
          retry := hcount
          retry_le := by omega
          targets := by rw [htargets, if_pos hlt, List.length_append, h.targets, hretry]; rfl }
    · right
      have hle := h.retry_le
      exact
        { isOver := Or.inr (by rw [hfollows.resendNum]; omega)
          answered := Or.inr (by omega)
          targets := by
            rw [htargets, if_neg hlt, List.append_nil, h.targets, timeouts, hreq, hbefore,
              ← hcount]
            omega }
  · intro _ _ hle hnew
    have hlt : t.retry < t.client.resendNum := by omega
    refine ⟨a, ?_, ?_⟩
    · rw [← h.follows.target, htarget]
    · rw [htargets, if_pos hlt, htarget' (by rw [h.follows.resendNewhead, hnew]) hlt]

/-- What a turn makes of a reply: it accepts the one that counts. -/
lemma onReply_spec {reply : Reply} (hfollows : c.Follows past t.client)
    (haccept : t.acceptFlag = false) :
    (t.onReply reply).req = t.req ∧ (t.onReply reply).retry = t.retry ∧
      (t.onReply reply).targets = t.targets ∧ (t.onReply reply).events = t.events ∧
      c.Follows (past ++ [.message (.reply reply)]) (t.onReply reply).client ∧
      ((t.onReply reply).acceptFlag = true ↔
        c.Accepts t.req.reqId past (.message (.reply reply))) := by
  have hclient : c.Follows (past ++ [.message (.reply reply)])
      { t.client with recvCount := t.client.recvCount + 1 } :=
    hfollows.append_of_names_eq_none fun _ => rfl
  have hdrop := hclient.dropReply
  simp only [onReply, Accepts, Receipt.reply?, Option.map_some, Option.some.injEq]
  split_ifs with hdropped hid
  · refine ⟨rfl, rfl, rfl, rfl, hclient, ?_⟩
    simp [haccept, hdrop.mp hdropped]
  · refine ⟨rfl, rfl, rfl, rfl, hclient, ?_⟩
    simp [hid, ← hdrop, hdropped]
  · refine ⟨rfl, rfl, rfl, rfl, hclient, ?_⟩
    simp [haccept, hid]

/-- What a turn that waits makes of a message. -/
lemma Waits.exists_read_message (h : t.Waits c past during) {msg : Message}
    (hknown : Receipt.Known c.toClient (.message msg)) :
    ∃ u, t.read (.message msg) = some u ∧ u.req = t.req ∧ u.retry = t.retry ∧
      u.targets = t.targets ∧ u.events = t.events ++ [.message msg] ∧
      c.Follows (past ++ during ++ [.message msg]) u.client ∧
      (u.acceptFlag = true ↔ c.Accepts t.req.reqId (past ++ during) (.message msg)) := by
  by_cases hmsg : ∃ reply, msg = .reply reply
  · obtain ⟨reply, rfl⟩ := hmsg
    exact ⟨_, rfl, onReply_spec (t := { t with events := t.events ++ [_] }) h.follows h.acceptFlag⟩
  · have hreply : (Receipt.message msg).reply? = none := by
      cases msg with
      | reply reply => exact absurd ⟨reply, rfl⟩ hmsg
      | _ => rfl
    obtain ⟨D, hD, hfollows⟩ := h.follows.handleMsg (not_exists.mp hmsg) hknown
    have hread : t.read (.message msg) = some { t with
        client := { t.client with toClient := D }, events := t.events ++ [.message msg] } := by
      rw [read, onMessage_of_not_reply (not_exists.mp hmsg), hD, Option.map_some]
    refine ⟨_, hread, rfl, rfl, rfl, rfl, hfollows, ?_⟩
    simp [h.acceptFlag, Accepts, hreply]

/-- A message, in a turn that waits. -/
lemma Waits.reads_message (h : t.Waits c past during) {msg : Message}
    (hknown : Receipt.Known c.toClient (.message msg)) :
    ∃ u, t.Reads c past during (.message msg) u := by
  obtain ⟨u, hread, hreq, hretry, htargets, hevents, hfollows, haccept⟩ :=
    h.exists_read_message hknown
  have hcount : (during ++ [Receipt.message msg]).count .timeout = during.count .timeout := by
    simp [List.count_append]
  have hle := h.retry_le
  refine ⟨u, hread, hreq, hfollows, ?_, fun _ => ⟨hretry, htargets⟩, by simp⟩
  by_cases hacc : c.Accepts t.req.reqId (past ++ during) (.message msg)
  · right
    have hbefore : c.beforeReply t.req.reqId past (during ++ [.message msg]) = during := by
      rw [beforeReply_append, if_neg (by simp [hacc]), h.unanswered]
    exact
      { isOver := Or.inl (haccept.mpr hacc)
        answered := Or.inl (by rw [hreq, hbefore]; simp)
        targets := by
          rw [htargets, h.targets, timeouts, hreq, hbefore, ← h.retry]
          omega }
  · left
    exact
      { follows := by rwa [← List.append_assoc]
        events := by rw [hevents, h.events]
        acceptFlag := by simpa [hacc] using haccept
        unanswered := by rw [hreq, beforeReply_append, if_pos ⟨h.unanswered, hacc⟩]
        retry := by rw [hretry, h.retry, hcount]
        retry_le := by omega
        targets := by rw [htargets, h.targets, hretry] }

/-- Whatever comes, in a turn that waits. -/
lemma Waits.reads (h : t.Waits c past during) (hreq : c.KnownBank t.req)
    (hknown : e.Known c.toClient) : ∃ u, t.Reads c past during e u := by
  cases e with
  | timeout => exact h.reads_timeout hreq
  | message msg => exact h.reads_message hknown

/-- The turn of a request begins with one sending, to the server that the client takes for the right
one. -/
lemma exists_start {d : RunningClient} {req : Request} (h : c.Follows past d)
    (hreq : c.KnownBank req) :
    ∃ t, start d req = some t ∧ t.req = { req with clientAddr := c.addr } ∧
      t.send.Waits c past [] := by
  have hreq' : c.KnownBank { req with clientAddr := d.addr } := hreq
  obtain ⟨a, htarget⟩ := h.exists_target hreq'
  have hstart : start d req = some
      { client := d, req := { req with clientAddr := d.addr }, target := a } := by
    rw [start]
    exact congrArg (Option.map _) htarget
  refine ⟨_, hstart, by rw [h.addr], ?_⟩
  exact
    { follows := by simpa using h
      events := rfl
      acceptFlag := rfl
      unanswered := rfl
      retry := rfl
      retry_le := Nat.zero_le _
      targets := rfl }

end Turn

end ChainReplication
