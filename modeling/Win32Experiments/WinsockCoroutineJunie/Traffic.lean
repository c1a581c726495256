import Win32Experiments.WinsockCoroutineJunie.Program

/-!
# What goes over the connections

What holds of the bytes that the sockets have sent and received when a socket is connected,
accepted at, sent over or received from; and what a suspended coroutine relies on of its own
sockets.
-/

namespace Win32Experiments.WinsockCoroutineJunie

open Foundation

/-! ## Traffic -/

namespace Traffic

variable {t t' : Traffic} {s a n opened : ℕ} {rest data : List UInt8} {own : Bool}

/-- The socket has sent what it has received except for `rest`, or a part of it when a send was
cut. -/
structure Echoes (t : Traffic) (s : ℕ) (rest : List UInt8) : Prop where
  sublist : (t.sent s ++ rest).Sublist (t.consumed s)
  eq : t.short = false → t.sent s ++ rest = t.consumed s

/-- The socket has sent the beginning of what it has received, or a part of it. -/
structure Follows (t : Traffic) (s : ℕ) : Prop where
  sublist : (t.sent s).Sublist (t.consumed s)
  isPrefix : t.short = false → t.sent s <+: t.consumed s

theorem Echoes.follows (h : t.Echoes s rest) : t.Follows s where
  sublist := (List.sublist_append_left _ _).trans h.sublist
  isPrefix hshort := h.eq hshort ▸ List.prefix_append _ _

/-- Bytes that are transmitted are not left any more. -/
theorem Echoes.transmit (h : t.Echoes s rest) (n : ℕ) :
    (t.transmit s (rest.take n)).Echoes s (rest.drop n) := by
  have hsent : (t.transmit s (rest.take n)).sent s ++ rest.drop n = t.sent s ++ rest := by
    show Function.update t.sent s _ s ++ _ = _
    rw [Function.update_self, List.append_assoc, List.take_append_drop]
  exact ⟨hsent ▸ h.sublist, fun hshort => hsent ▸ h.eq hshort⟩

/-- Bytes that are received are left to send. -/
theorem Echoes.receive (h : t.Echoes s []) (data : List UInt8) :
    (t.receive s data).Echoes s data := by
  have hconsumed : (t.receive s data).consumed s = t.consumed s ++ data :=
    Function.update_self s _ t.consumed
  have hsub := h.sublist
  rw [List.append_nil] at hsub
  refine ⟨?_, fun hshort => ?_⟩
  · rw [hconsumed]
    exact hsub.append_right data
  · have heq := h.eq hshort
    rw [List.append_nil] at heq
    rw [hconsumed, ← heq]
    rfl

/-- A send that ends leaves nothing, except for what is lost. -/
theorem Echoes.cut (h : t.Echoes s rest) : (t.cut rest).Echoes s [] where
  sublist := by
    rw [List.append_nil]
    exact h.follows.sublist
  eq hshort := by
    have hboth := Bool.or_eq_false_iff.mp hshort
    have hrest : rest = [] := by
      cases rest with
      | nil => rfl
      | cons b rest => exact absurd hboth.2 (by simp)
    have heq := h.eq hboth.1
    rw [hrest] at heq
    exact heq

/-- The traffic is the same at the socket, and nothing new was cut. -/
structure Agrees (t t' : Traffic) (s : ℕ) : Prop where
  client : t'.client = t.client
  sent : t'.sent s = t.sent s
  consumed : t'.consumed s = t.consumed s
  short : t'.short = false → t.short = false

theorem Agrees.echoes (hagrees : t.Agrees t' s) (h : t.Echoes s rest) : t'.Echoes s rest where
  sublist := by
    rw [hagrees.sent, hagrees.consumed]
    exact h.sublist
  eq hshort := by
    rw [hagrees.sent, hagrees.consumed]
    exact h.eq (hagrees.short hshort)

theorem agrees_transmit (hs : s ≠ a) : t.Agrees (t.transmit a data) s :=
  ⟨rfl, Function.update_of_ne hs _ _, rfl, id⟩

theorem agrees_receive (hs : s ≠ a) : t.Agrees (t.receive a data) s :=
  ⟨rfl, rfl, Function.update_of_ne hs _ _, id⟩

theorem agrees_cut : t.Agrees (t.cut rest) s :=
  ⟨rfl, rfl, rfl, fun hshort => (Bool.or_eq_false_iff.mp hshort).1⟩

theorem agrees_accept : t.Agrees (t.accept a own) s := ⟨rfl, rfl, rfl, id⟩

/-- What holds of the traffic: the client sends its message, the others echo, the two ends of the
client's connection receive what the other has sent, and no socket has traffic that is still to be
made. -/
structure Sound (t : Traffic) (opened : ℕ) : Prop where
  follows : ∀ s, t.client ≠ some s → t.Follows s
  client : ∀ c, t.client = some c → c < opened ∧ t.sent c <+: message
  link : ∀ a, t.link = some a →
    ∃ c, t.client = some c ∧ c ≠ a ∧ t.consumed a <+: t.sent c ∧ t.consumed c <+: t.sent a
  fresh : ∀ s, opened ≤ s → t.sent s = [] ∧ t.consumed s = []

namespace Sound

theorem empty : Traffic.empty.Sound 0 where
  follows _ _ := ⟨List.Sublist.refl _, fun _ => List.prefix_refl _⟩
  client c hc := absurd hc (Option.some_ne_none c).symm
  link a ha := absurd ha (Option.some_ne_none a).symm
  fresh _ _ := ⟨rfl, rfl⟩

/-- Another socket is made. -/
theorem succ (h : t.Sound opened) : t.Sound (opened + 1) where
  follows := h.follows
  client c hc := ⟨Nat.lt_succ_of_lt (h.client c hc).1, (h.client c hc).2⟩
  link := h.link
  fresh s hs := h.fresh s (Nat.le_of_succ_le hs)

/-- `Client::Run` connects a socket that has no traffic. -/
theorem connect (h : t.Sound opened) (hnone : t.client = none) (hs : s < opened)
    (hsent : t.sent s = []) : { t with client := some s }.Sound opened where
  follows a ha :=
    have hfollows := h.follows a (by simp [hnone])
    ⟨hfollows.sublist, hfollows.isPrefix⟩
  client c hc := by
    obtain rfl := Option.some.inj hc
    refine ⟨hs, ?_⟩
    show t.sent s <+: message
    rw [hsent]
    exact List.nil_prefix
  link a ha := by
    obtain ⟨c, hc, -⟩ := h.link a ha
    rw [hnone] at hc
    contradiction
  fresh := h.fresh

/-- The client's connection is accepted at a socket that has no traffic. -/
theorem accept {acceptSock : ℕ} (h : t.Sound opened) (hnew : t.client ≠ some acceptSock)
    (hconsumed : t.consumed acceptSock = [])
    (hpermits : own = true → ∃ c, t.client = some c ∧ t.consumed c = []) :
    (t.accept acceptSock own).Sound opened where
  follows s hs := ⟨(h.follows s hs).sublist, (h.follows s hs).isPrefix⟩
  client := h.client
  link a ha := by
    cases own with
    | false => exact h.link a ha
    | true =>
      obtain rfl := Option.some.inj ha
      obtain ⟨c, hc, hnil⟩ := hpermits rfl
      refine ⟨c, hc, ?_, ?_, ?_⟩
      · rintro rfl
        exact hnew hc
      · show t.consumed acceptSock <+: _
        rw [hconsumed]
        exact List.nil_prefix
      · show t.consumed c <+: _
        rw [hnil]
        exact List.nil_prefix
  fresh := h.fresh

theorem cut (h : t.Sound opened) (rest : List UInt8) : (t.cut rest).Sound opened where
  follows s hs :=
    ⟨(h.follows s hs).sublist, fun hshort =>
      (h.follows s hs).isPrefix (Bool.or_eq_false_iff.mp hshort).1⟩
  client := h.client
  link := h.link
  fresh := h.fresh

/-- A socket sends a part of what it is to echo, or of the message. -/
theorem transmit (h : t.Sound opened) (hs : s < opened) (n : ℕ)
    (hother : t.client ≠ some s → t.Echoes s rest)
    (hclient : t.client = some s → t.sent s ++ rest = message) :
    (t.transmit s (rest.take n)).Sound opened := by
  have hself : (t.transmit s (rest.take n)).sent s = t.sent s ++ rest.take n :=
    Function.update_self s _ t.sent
  have hne {a : ℕ} (ha : a ≠ s) : (t.transmit s (rest.take n)).sent a = t.sent a :=
    Function.update_of_ne ha _ _
  have hgrows (a : ℕ) : t.sent a <+: (t.transmit s (rest.take n)).sent a := by
    by_cases ha : a = s
    · rw [ha, hself]
      exact List.prefix_append _ _
    · exact (hne ha).symm ▸ List.prefix_refl (t.sent a)
  refine ⟨?_, ?_, ?_, ?_⟩
  · intro a ha
    by_cases heq : a = s
    · subst heq
      exact ((hother ha).transmit n).follows
    · have hfollows := h.follows a ha
      refine ⟨?_, fun hshort => ?_⟩
      · rw [hne heq]
        exact hfollows.sublist
      · rw [hne heq]
        exact hfollows.isPrefix hshort
  · intro c hc
    obtain ⟨hlt, hpre⟩ := h.client c hc
    refine ⟨hlt, ?_⟩
    by_cases heq : c = s
    · subst heq
      rw [hself, ← hclient hc, List.prefix_append_right_inj]
      exact List.take_prefix n rest
    · rw [hne heq]
      exact hpre
  · intro a ha
    obtain ⟨c, hc, hca, hup, hdown⟩ := h.link a ha
    exact ⟨c, hc, hca, hup.trans (hgrows c), hdown.trans (hgrows a)⟩
  · intro a ha
    rw [hne (by omega)]
    exact h.fresh a ha

/-- A socket receives what the other end has sent. -/
theorem receive (h : t.Sound opened) (hs : s < opened)
    (hpermits : ∀ q, t.peer s = some q → t.consumed s ++ data <+: t.sent q) :
    (t.receive s data).Sound opened := by
  have hself : (t.receive s data).consumed s = t.consumed s ++ data :=
    Function.update_self s _ t.consumed
  have hne {a : ℕ} (ha : a ≠ s) : (t.receive s data).consumed a = t.consumed a :=
    Function.update_of_ne ha _ _
  refine ⟨?_, h.client, ?_, ?_⟩
  · intro a ha
    have hfollows := h.follows a ha
    by_cases heq : a = s
    · subst heq
      refine ⟨?_, fun hshort => ?_⟩
      · rw [hself]
        exact hfollows.sublist.trans (List.sublist_append_left _ _)
      · rw [hself]
        exact (hfollows.isPrefix hshort).trans (List.prefix_append _ _)
    · refine ⟨?_, fun hshort => ?_⟩
      · rw [hne heq]
        exact hfollows.sublist
      · rw [hne heq]
        exact hfollows.isPrefix hshort
  · intro a (ha : t.link = some a)
    obtain ⟨c, hc, hca, hup, hdown⟩ := h.link a ha
    refine ⟨c, hc, hca, ?_, ?_⟩
    · by_cases heq : a = s
      · subst heq
        have hpeer : t.peer a = some c := by
          rw [peer, if_pos ha]
          exact hc
        rw [hself]
        exact hpermits c hpeer
      · rw [hne heq]
        exact hup
    · by_cases heq : c = s
      · subst heq
        have hlink : t.link ≠ some c := by
          intro heq
          exact hca (Option.some.inj (heq.symm.trans ha))
        have hpeer : t.peer c = some a := by
          rw [peer, if_neg hlink, if_pos hc]
          exact ha
        rw [hself]
        exact hpermits a hpeer
      · rw [hne heq]
        exact hdown
  · intro a ha
    rw [hne (by omega)]
    exact h.fresh a ha

end Sound

end Traffic

/-! ## Coroutines -/

namespace Frame

variable {f : Frame} {t t' : Traffic} {request : Request} {bytes error : ℕ}

/-- What a coroutine has done with the traffic while its operation is in the kernel. -/
def During (t : Traffic) (request : Request) : Frame → Prop
  | .serverRun _ acceptSock =>
    t.client ≠ some acceptSock ∧ t.sent acceptSock = [] ∧ t.consumed acceptSock = []
  | .handleRecv s buffer => t.client ≠ some s ∧ buffer.length = bufferSize ∧ t.Echoes s []
  | .handleSend s buffer =>
    t.client ≠ some s ∧ buffer.length = bufferSize ∧
      ∀ done rest, request = .send done rest → t.Echoes s rest
  | .clientConnect s => t.client = some s ∧ t.sent s = [] ∧ t.consumed s = []
  | .clientSend s =>
    t.client = some s ∧ t.consumed s = [] ∧
      ∀ done rest, request = .send done rest → t.sent s ++ rest = message
  | .clientRecv s recvBuf =>
    t.client = some s ∧ t.consumed s = [] ∧ recvBuf.length = bufferSize

/-- What it has done with the traffic when the operation has ended. -/
def After (t : Traffic) (bytes error : ℕ) : Frame → Prop
  | .serverRun _ acceptSock =>
    t.client ≠ some acceptSock ∧ t.sent acceptSock = [] ∧ t.consumed acceptSock = []
  | .handleRecv s buffer =>
    t.client ≠ some s ∧ buffer.length = bufferSize ∧ t.Echoes s (window buffer 0 bytes)
  | .handleSend s buffer => t.client ≠ some s ∧ buffer.length = bufferSize ∧ t.Echoes s []
  | .clientConnect s => t.client = some s ∧ t.sent s = [] ∧ t.consumed s = []
  | .clientSend s => t.client = some s ∧ t.consumed s = []
  | .clientRecv s recvBuf =>
    t.client = some s ∧ (error = 0 → window recvBuf 0 bytes = t.consumed s)

/-- What other sockets do is nothing to the coroutine. -/
theorem During.agrees (h : f.During t request) (hagrees : ∀ s ∈ f.sockets, t.Agrees t' s) :
    f.During t' request := by
  cases f with
  | serverRun listenSock acceptSock =>
    have ha := hagrees acceptSock List.mem_cons_self
    rw [During, ha.client, ha.sent, ha.consumed]
    exact h
  | handleRecv s buffer =>
    have ha := hagrees s List.mem_cons_self
    rw [During, ha.client]
    exact ⟨h.1, h.2.1, ha.echoes h.2.2⟩
  | handleSend s buffer =>
    have ha := hagrees s List.mem_cons_self
    rw [During, ha.client]
    exact ⟨h.1, h.2.1, fun done rest hreq => ha.echoes (h.2.2 done rest hreq)⟩
  | clientConnect s =>
    have ha := hagrees s List.mem_cons_self
    rw [During, ha.client, ha.sent, ha.consumed]
    exact h
  | clientSend s =>
    have ha := hagrees s List.mem_cons_self
    rw [During, ha.client, ha.sent, ha.consumed]
    exact h
  | clientRecv s recvBuf =>
    have ha := hagrees s List.mem_cons_self
    rw [During, ha.client, ha.consumed]
    exact h

theorem After.agrees (h : f.After t bytes error) (hagrees : ∀ s ∈ f.sockets, t.Agrees t' s) :
    f.After t' bytes error := by
  cases f with
  | serverRun listenSock acceptSock =>
    have ha := hagrees acceptSock List.mem_cons_self
    rw [After, ha.client, ha.sent, ha.consumed]
    exact h
  | handleRecv s buffer =>
    have ha := hagrees s List.mem_cons_self
    rw [After, ha.client]
    exact ⟨h.1, h.2.1, ha.echoes h.2.2⟩
  | handleSend s buffer =>
    have ha := hagrees s List.mem_cons_self
    rw [After, ha.client]
    exact ⟨h.1, h.2.1, ha.echoes h.2.2⟩
  | clientConnect s =>
    have ha := hagrees s List.mem_cons_self
    rw [After, ha.client, ha.sent, ha.consumed]
    exact h
  | clientSend s =>
    have ha := hagrees s List.mem_cons_self
    rw [After, ha.client, ha.consumed]
    exact h
  | clientRecv s recvBuf =>
    have ha := hagrees s List.mem_cons_self
    rw [After, ha.client, ha.consumed]
    exact h

/-- `Client::Run` connects a socket that is not one of the coroutine. -/
theorem During.connect {s : ℕ} (h : f.During t request) (hnone : t.client = none)
    (hs : s ∉ f.sockets) : f.During { t with client := some s } request := by
  cases f with
  | serverRun listenSock acceptSock =>
    refine ⟨fun heq => hs ?_, h.2⟩
    exact Option.some.inj heq ▸ List.mem_cons_self
  | handleRecv a buffer =>
    refine ⟨fun heq => hs ?_, h.2.1, h.2.2.sublist, h.2.2.eq⟩
    exact Option.some.inj heq ▸ List.mem_cons_self
  | handleSend a buffer =>
    refine ⟨fun heq => hs ?_, h.2.1, fun done rest hreq => ?_⟩
    · exact Option.some.inj heq ▸ List.mem_cons_self
    · exact ⟨(h.2.2 done rest hreq).sublist, (h.2.2 done rest hreq).eq⟩
  | clientConnect a => exact absurd (hnone.symm.trans h.1) (by simp)
  | clientSend a => exact absurd (hnone.symm.trans h.1) (by simp)
  | clientRecv a recvBuf => exact absurd (hnone.symm.trans h.1) (by simp)

theorem After.connect {s : ℕ} (h : f.After t bytes error) (hnone : t.client = none)
    (hs : s ∉ f.sockets) : f.After { t with client := some s } bytes error := by
  cases f with
  | serverRun listenSock acceptSock =>
    refine ⟨fun heq => hs ?_, h.2⟩
    exact Option.some.inj heq ▸ List.mem_cons_self
  | handleRecv a buffer =>
    refine ⟨fun heq => hs ?_, h.2.1, h.2.2.sublist, h.2.2.eq⟩
    exact Option.some.inj heq ▸ List.mem_cons_self
  | handleSend a buffer =>
    refine ⟨fun heq => hs ?_, h.2.1, h.2.2.sublist, h.2.2.eq⟩
    exact Option.some.inj heq ▸ List.mem_cons_self
  | clientConnect a => exact absurd (hnone.symm.trans h.1) (by simp)
  | clientSend a => exact absurd (hnone.symm.trans h.1) (by simp)
  | clientRecv a recvBuf => exact absurd (hnone.symm.trans h.1) (by simp)

end Frame

end Win32Experiments.WinsockCoroutineJunie
