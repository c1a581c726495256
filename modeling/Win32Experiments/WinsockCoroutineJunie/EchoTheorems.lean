import Win32Experiments.WinsockCoroutineJunie.ResumptionTheorems
import Win32Experiments.WinsockCoroutineJunie.Traffic

/-!
# What the client gets back

`HandleClient` sends what it has received. It does not look at the result of its sends: when one
ends before all was sent, it goes on with the next receive, and a part is missing in what it sends.
So the client, if it was accepted by the server of the program, prints bytes of its message in their
order, and the beginning of the message where no send was cut.
-/

namespace Win32Experiments.WinsockCoroutineJunie

open Foundation

namespace Program

variable {p q : Program} {f : Frame} {op : Operation} {items : List Operation} {locals : List ℕ}
  {i k s listenSock : ℕ} {line : Line} {data : List UInt8}

/-- The coroutines and the traffic, and what was printed of it. -/
structure Echo (p : Program) : Prop where
  each : p.Each (fun f op => f.During p.traffic op.request)
    fun f packet => f.After p.traffic packet.bytes packet.error
  sound : p.traffic.Sound p.sockets.opened
  printed : ∀ text, .received text ∈ p.output →
    ∃ c, p.traffic.client = some c ∧ text <+: p.traffic.consumed c

namespace Echo

theorem start : Program.start.Echo where
  each := Each.start
  sound := Traffic.Sound.empty
  printed _ htext := absurd htext List.not_mem_nil

theorem setMain (he : p.Echo) (main : Main) : { p with main }.Echo :=
  { he with each := { he.each with } }

/-! ### Calls -/

theorem println (he : p.Echo) (line : Line) (hline : line.isEnd = false) :
    (p.println line).Echo := by
  refine { he with each := { he.each with }, printed := fun text htext => ?_ }
  rcases List.mem_append.mp htext with htext | htext
  · exact he.printed text htext
  · obtain rfl := List.mem_singleton.mp htext
    contradiction

theorem socket (he : p.Echo) : p.socket.Echo :=
  { he with each := { he.each with }, sound := he.sound.succ }

theorem closesocket (he : p.Echo) : (p.closesocket s).Echo := { he with each := { he.each with } }

theorem leave (he : p.Echo) : (p.leave s).Echo := { he with each := { he.each with } }

theorem use (he : p.Echo) : (p.use s).Echo := { he with each := { he.each with } }

theorem useInvalid (he : p.Echo) : p.useInvalid.Echo := { he with each := { he.each with } }

theorem registerSocket (he : p.Echo) (ok : Bool) : (p.RegisterSocket s ok).Echo := by
  rw [RegisterSocket]
  split
  · exact { he with each := { he.each with } }
  · exact (he.use).println _ rfl

theorem call (he : p.Echo) : p.call.Echo := { he with each := he.each.call }

/-- A coroutine suspends itself as what is said of an operation in the kernel. -/
theorem suspend {request : Request} {socket : ℕ} (he : p.Echo) (hs : p.Safe p.outstanding locals)
    (hi : p.Runs i) (hduring : f.During p.traffic request) :
    (p.suspend i f socket request).Echo :=
  { he with each := he.each.suspend hs hi hduring }

/-! ### Coroutines -/

theorem receive {buffer : List UInt8} (he : p.Echo) (hs : p.Safe p.outstanding (s :: locals))
    (hi : p.Runs i) (submitted : Bool)
    (hduring : (Frame.handleRecv s buffer).During p.traffic (.recv bufferSize)) :
    (p.receive i s buffer submitted).Echo := by
  rw [Program.receive, hs.use_eq List.mem_cons_self]
  cases submitted with
  | true => exact he.suspend hs hi hduring
  | false => exact he.closesocket

/-- `HandleClient` starts with a socket that has no traffic. -/
theorem handleClient (he : p.Echo) (hs : p.Safe p.outstanding (s :: locals)) (submitted : Bool)
    (hnew : p.traffic.client ≠ some s) (hsent : p.traffic.sent s = [])
    (hconsumed : p.traffic.consumed s = []) : (p.handleClient s submitted).Echo := by
  refine receive he.call hs.call runs_call submitted ⟨hnew, List.length_replicate, ?_, ?_⟩
  · show (p.traffic.sent s ++ []).Sublist (p.traffic.consumed s)
    rw [hsent, hconsumed]
    exact List.Sublist.refl _
  · intro hshort
    show p.traffic.sent s ++ [] = p.traffic.consumed s
    rw [hsent, hconsumed]
    rfl

theorem acceptLoop (he : p.Echo) (hs : p.Safe p.outstanding [listenSock]) (hi : p.Runs i)
    (answer : AcceptCall) : (p.acceptLoop i listenSock answer).Echo := by
  rw [Program.acceptLoop]
  split
  · exact he.closesocket
  · split
    · have hsocket := hs.socket_registerSocket answer.associated
      have hecho := he.socket.registerSocket (s := p.sockets.opened) answer.associated
      have hlisten := hsocket.use_eq (List.mem_cons_of_mem _ List.mem_cons_self)
      have haccept := hsocket.use_eq List.mem_cons_self
      simp only [hlisten, haccept]
      split
      · refine hecho.suspend hsocket ?_ ?_
        · rw [Runs, frames_registerSocket, frames_socket]
          exact hi
        · -- the socket to accept at is the one just made
          have htraffic : (p.socket.RegisterSocket p.sockets.opened answer.associated).traffic =
              p.traffic := (keeps_socket.trans keeps_registerSocket).traffic
          rw [htraffic]
          obtain ⟨hsent, hconsumed⟩ := he.sound.fresh p.sockets.opened (Nat.le_refl _)
          refine ⟨fun hclient => ?_, hsent, hconsumed⟩
          exact Nat.lt_irrefl _ (he.sound.client _ hclient).1
      · exact ((hecho.println _ rfl).closesocket).closesocket
    · have hfailed := ((he.useInvalid.println .registerFailed rfl).use (s := listenSock)).useInvalid
      exact ((hfailed.println .acceptFailed rfl).useInvalid).closesocket

theorem serverRun (he : p.Echo) (hs : p.Safe p.outstanding []) (answer : ServerCall) :
    (p.serverRun answer).Echo := by
  rw [Program.serverRun]
  split
  · have hsocket := hs.call.socket_registerSocket answer.associated
    have hecho := he.call.socket.registerSocket (s := p.sockets.opened) answer.associated
    simp only [hsocket.use_eq List.mem_cons_self]
    split
    · split
      · refine acceptLoop (hecho.println _ rfl) (hsocket.println .listening) ?_ answer.accept
        rw [Runs, frames_println, frames_registerSocket, frames_socket]
        exact runs_call
      · exact (hecho.println _ rfl).leave
    · exact (hecho.println _ rfl).leave
  · exact he.call.println _ rfl

/-- `Client::Run` connects a socket: the coroutines that wait have others. -/
theorem connect (he : p.Echo) (hs : p.Safe items (s :: locals))
    (hnone : p.traffic.client = none) (hsent : p.traffic.sent s = []) :
    { p with traffic := { p.traffic with client := some s } }.Echo where
  each := by
    have hother {i : ℕ} {f : Frame} (hf : objectAt p.frames i = some f) : s ∉ f.sockets :=
      hs.not_mem_sockets List.mem_cons_self hf
    constructor
    · intro op hop f hf
      exact (he.each.pending op hop f hf).connect hnone (hother hf)
    · intro packet hpacket f hf
      exact (he.each.port packet hpacket f hf).connect hnone (hother hf)
  sound := by
    have hlive : p.sockets.Live s := hs.accounts.live List.mem_cons_self
    exact he.sound.connect hnone hlive.1 hsent
  printed text htext := by
    obtain ⟨c, hc, -⟩ := he.printed text htext
    rw [hnone] at hc
    contradiction

theorem clientRun (he : p.Echo) (hs : p.Safe p.outstanding []) (hnone : p.traffic.client = none)
    (answer : ClientCall) : (p.clientRun answer).Echo := by
  rw [Program.clientRun]
  split
  · have hsocket := hs.call.socket_registerSocket answer.associated
    have hconnecting := hsocket.println .connecting
    have hecho := he.call.socket.registerSocket (s := p.sockets.opened) answer.associated
    simp only [hsocket.use_eq List.mem_cons_self]
    rw [hconnecting.use_eq List.mem_cons_self]
    split
    · -- the socket is new, so nothing went over it
      have htraffic : (p.call.socket.RegisterSocket p.sockets.opened answer.associated).traffic =
          p.traffic := ((keeps_call.trans keeps_socket).trans keeps_registerSocket).traffic
      obtain ⟨hsent, hconsumed⟩ := he.sound.fresh p.sockets.opened (Nat.le_refl _)
      have hconnect := (hecho.println .connecting rfl).connect hconnecting
        (htraffic ▸ hnone) (htraffic ▸ hsent)
      refine hconnect.suspend { hconnecting with } ?_ ⟨rfl, ?_, ?_⟩
      · rw [Runs, frames_println, frames_registerSocket, frames_socket]
        exact runs_call
      · exact htraffic ▸ hsent
      · exact htraffic ▸ hconsumed
    · exact ((hecho.println _ rfl).println _ rfl).closesocket
  · exact he.call.println _ rfl

/-- A coroutine that is resumed behind its operation goes on from what it has done. -/
theorem resume (he : p.Echo) (hs : p.Safe p.outstanding f.sockets) (hi : p.Runs i)
    (answers : Answers)
    (hafter : f.After p.traffic (p.awaitables ⟨i, f.awaits⟩).result.bytes
      (p.awaitables ⟨i, f.awaits⟩).result.error) : (p.resume i f answers).Echo := by
  cases f with
  | serverRun listenSock acceptSock =>
    obtain ⟨hnew, hsent, hconsumed⟩ := hafter
    rw [Program.resume]
    split
    · exact he.closesocket.closesocket
    · rw [hs.use_eq List.mem_cons_self]
      have hsafe := (hs.println .clientConnected).handleClient answers.submitted
      have hecho := (he.println .clientConnected rfl).handleClient
        (hs.println .clientConnected) answers.submitted hnew hsent hconsumed
      exact hecho.acceptLoop hsafe (Runs.handleClient hi) answers.accept
  | handleRecv s buffer =>
    obtain ⟨hnew, hlen, hechoes⟩ := hafter
    rw [Program.resume]
    split
    · exact he.closesocket
    · rw [hs.use_eq List.mem_cons_self]
      split
      · refine he.suspend hs hi ⟨hnew, hlen, fun done rest hreq => ?_⟩
        obtain ⟨-, rfl⟩ := Request.send.inj hreq
        exact hechoes
      · exact he.closesocket
  | handleSend s buffer => exact he.receive hs hi answers.submitted hafter
  | clientConnect s =>
    obtain ⟨hclient, hsent, hconsumed⟩ := hafter
    rw [Program.resume]
    split
    · exact (he.println _ rfl).closesocket
    · have hsending := (hs.println .connected).println .sending
      have hecho := (he.println .connected rfl).println .sending rfl
      rw [hs.use_eq List.mem_cons_self, hsending.use_eq List.mem_cons_self]
      split
      · refine hecho.suspend hsending hi ⟨hclient, hconsumed, fun done rest hreq => ?_⟩
        obtain ⟨-, rfl⟩ := Request.send.inj hreq
        show p.traffic.sent s ++ message = message
        rw [hsent, List.nil_append]
      · exact hecho.closesocket
  | clientSend s =>
    rw [Program.resume, hs.use_eq List.mem_cons_self]
    split
    · exact he.suspend hs hi ⟨hafter.1, hafter.2, List.length_replicate⟩
    · exact he.closesocket
  | clientRecv s recvBuf =>
    -- what is printed is what the socket has received
    refine { he with each := { he.each with }, printed := fun text htext => ?_ }
    have htext' : .received text ∈ p.output ++ [_] ++ [Line.finished] := htext
    rw [List.append_assoc] at htext'
    rcases List.mem_append.mp htext' with htext' | htext'
    · exact he.printed text htext'
    · rcases List.mem_cons.mp htext' with heq | hend
      · split at heq
        · next herror =>
          obtain rfl := Line.received.inj heq
          exact ⟨s, hafter.1, hafter.2 herror ▸ List.prefix_refl _⟩
        · contradiction
      · exact absurd (List.mem_singleton.mp hend) (by simp)

/-! ### Packets -/

theorem delivered {packet : Packet} (he : p.Echo) : (p.delivered packet).Echo :=
  { he with each := he.each.delivered }

theorem dispatch {packet : Packet} {port : List Packet} (he : p.Echo)
    (hs : p.Safe p.outstanding []) (hport : p.port = packet :: port) (answers : Answers) :
    ({ p with port }.dispatch packet answers).Echo := by
  have htaken : { p with port }.Safe (packet.operation :: { p with port }.outstanding) [] :=
    { hs.perm (perm_outstanding_port hport) with }
  have hecho : { p with port }.Echo := { he with each := he.each.tail hport }
  by_cases herror : packet.error = WAIT_TIMEOUT
  · rw [Program.dispatch, if_pos herror]
    exact { hecho with each := { hecho.each with } }
  · obtain ⟨f, hf, hawaits⟩ := htaken.exists_frame
    rw [htaken.dispatch_eq hf herror]
    refine resume hecho.delivered (htaken.delivered hf) (runs_delivered hf) answers ?_
    rw [hawaits.address_eq, result_delivered]
    exact he.each.port packet (hport ▸ List.mem_cons_self) f hf

/-! ### The kernel -/

/-- An operation ends, and what its coroutine has done is what it relies on behind it. -/
theorem report {bytes error : ℕ} (he : p.Echo)
    (hafter : ∀ f, objectAt p.frames op.overlapped.frame = some f →
      f.After p.traffic bytes error) : (p.report op bytes error).Echo := by
  have heach : (p.report op bytes error).Each (fun f op => f.During p.traffic op.request)
      fun f packet => f.After p.traffic packet.bytes packet.error :=
    he.each.report fun _ f hf => hafter f hf
  have htraffic : (p.report op bytes error).traffic = p.traffic := traffic_report
  refine ⟨?_, ?_, ?_⟩
  · rw [htraffic]
    exact heach
  · rw [htraffic, undisturbed_report.sockets]
    exact he.sound
  · rw [htraffic, undisturbed_report.output]
    exact he.printed

/-- The traffic changes at the sockets of one coroutine, whose operation is set apart. -/
theorem setTraffic {traffic : Traffic} (he : p.Echo) (hs : p.Safe (op :: p.outstanding) locals)
    (hf : objectAt p.frames op.overlapped.frame = some f)
    (hagrees : ∀ s, s ∉ f.sockets → p.traffic.Agrees traffic s)
    (hsound : traffic.Sound p.sockets.opened)
    (hgrows : ∀ s, p.traffic.consumed s <+: traffic.consumed s)
    (hclient : traffic.client = p.traffic.client) : { p with traffic }.Echo := by
  have hothers {o : Operation} {g : Frame} (ho : o ∈ p.outstanding)
      (hg : objectAt p.frames o.overlapped.frame = some g) :
      ∀ s ∈ g.sockets, p.traffic.Agrees traffic s := fun s hs' =>
    hagrees s (hs.sockets_disjoint (hs.frame_ne ho).symm hg hf hs')
  have heach := he.each.imp
    (fun g o ho hg h => Frame.During.agrees h (hothers ho hg))
    fun g packet ho hg h => Frame.After.agrees h (hothers ho hg)
  refine ⟨{ heach with }, hsound, fun text htext => ?_⟩
  obtain ⟨c, hc, hpre⟩ := he.printed text htext
  exact ⟨c, hclient.trans hc, hpre.trans (hgrows c)⟩

/-- The kernel writes to the frame of the operation that is set apart. -/
theorem store (he : p.Echo) (hs : p.Safe (op :: p.outstanding) locals) :
    (p.store op.overlapped.frame data).Echo := by
  have htraffic : (p.store op.overlapped.frame data).traffic = p.traffic := traffic_store
  refine ⟨?_, ?_, ?_⟩
  · rw [htraffic]
    exact he.each.store hs data
  · rw [htraffic, undisturbed_store.sockets]
    exact he.sound
  · rw [htraffic, undisturbed_store.output]
    exact he.printed

/-- A receive that ends has filled the buffer of its coroutine. -/
theorem received (he : p.Echo) (hs : p.Safe (op :: p.outstanding) locals)
    (hf : objectAt p.frames op.overlapped.frame = some f) (hawaits : f.Awaits op)
    (hpermits : ∀ q, p.traffic.peer op.socket = some q →
      p.traffic.consumed op.socket ++ data <+: p.traffic.sent q)
    (hafter : (f.store data).After (p.traffic.receive op.socket data) data.length 0) :
    (({ p with traffic := p.traffic.receive op.socket data }.store op.overlapped.frame data).report
      op data.length 0).Echo := by
  have hlive : p.sockets.Live op.socket := hs.live_socket List.mem_cons_self
  have hgrows (s : ℕ) : p.traffic.consumed s <+: (p.traffic.receive op.socket data).consumed s := by
    by_cases heq : s = op.socket
    · subst heq
      show _ <+: Function.update p.traffic.consumed op.socket _ op.socket
      rw [Function.update_self]
      exact List.prefix_append _ _
    · have hsame : (p.traffic.receive op.socket data).consumed s = p.traffic.consumed s :=
        (Traffic.agrees_receive heq).consumed
      exact hsame.symm ▸ List.prefix_refl (p.traffic.consumed s)
  have hother (s : ℕ) (hs' : s ∉ f.sockets) : s ≠ op.socket :=
    fun heq => hs' (heq ▸ hawaits.mem_sockets)
  have hecho := he.setTraffic hs hf (fun s hs' => Traffic.agrees_receive (hother s hs'))
    (he.sound.receive hlive.1 hpermits) hgrows rfl
  have hsafe : { p with traffic := p.traffic.receive op.socket data }.Safe
      (op :: { p with traffic := p.traffic.receive op.socket data }.outstanding) locals :=
    { hs with }
  have hstored : objectAt ({ p with traffic := p.traffic.receive op.socket data }.store
      op.overlapped.frame data).frames op.overlapped.frame = some (f.store data) :=
    objectAt_store hf
  refine (hecho.store hsafe).report fun g hg => ?_
  rw [hstored, Option.some.injEq] at hg
  rw [← hg, traffic_store]
  exact hafter

/-- The kernel permits to receive what the other end has sent. -/
theorem permits_received {size : ℕ} (hreq : op.request = .recv size)
    (hpermits : p.traffic.Permits op (.received data) = true) :
    data.length ≤ size ∧ ∀ q, p.traffic.peer op.socket = some q →
      p.traffic.consumed op.socket ++ data <+: p.traffic.sent q := by
  simp only [Traffic.Permits, hreq, Bool.and_eq_true, decide_eq_true_eq] at hpermits
  refine ⟨hpermits.1, fun q hq => ?_⟩
  rw [hq, Option.all_some] at hpermits
  exact List.isPrefixOf_iff_prefix.mp hpermits.2

theorem complete {outcome : Outcome} (he : p.Echo) (hs : p.Safe (op :: p.outstanding) locals)
    (hf : objectAt p.frames op.overlapped.frame = some f) (hawaits : f.Awaits op)
    (hduring : f.During p.traffic op.request) (hpermits : p.traffic.Permits op outcome = true) :
    (p.complete op outcome).Echo := by
  have hthe {g : Frame} {P : Frame → Prop} (h : P f)
      (hg : objectAt p.frames op.overlapped.frame = some g) : P g :=
    Option.some.inj (hf.symm.trans hg) ▸ h
  have hcut (rest : List UInt8) : { p with traffic := p.traffic.cut rest }.Echo :=
    he.setTraffic hs hf (fun _ _ => Traffic.agrees_cut) (he.sound.cut rest)
      (fun _ => List.prefix_refl _) rfl
  cases f with
  | serverRun listenSock acceptSock =>
    obtain ⟨hsocket, hreq⟩ := hawaits.2
    obtain ⟨hnew, hsent, hconsumed⟩ := hduring
    cases outcome with
    | accepted own =>
      simp only [Program.complete, hreq]
      refine report ?_ fun g hg => hthe ⟨hnew, hsent, hconsumed⟩ hg
      refine he.setTraffic hs hf (fun _ _ => Traffic.agrees_accept) ?_
        (fun _ => List.prefix_refl _) rfl
      refine he.sound.accept hnew hconsumed fun hown => ?_
      simp only [Traffic.Permits, hreq, hown, Bool.not_true, Bool.false_or, Bool.and_eq_true,
        Option.any_eq_true, List.isEmpty_iff] at hpermits
      exact hpermits.2
    | failed error =>
      simp only [Program.complete, hreq]
      exact he.report fun g hg => hthe ⟨hnew, hsent, hconsumed⟩ hg
    | connected => simp [Traffic.Permits, hreq] at hpermits
    | sent => simp [Traffic.Permits, hreq] at hpermits
    | received data => simp [Traffic.Permits, hreq] at hpermits
  | handleRecv s buffer =>
    obtain ⟨rfl, hreq⟩ := hawaits.2
    obtain ⟨hnew, hlen, hechoes⟩ := hduring
    cases outcome with
    | received data =>
      obtain ⟨hfits, hpeer⟩ := permits_received hreq hpermits
      simp only [Program.complete, hreq]
      refine he.received hs hf hawaits hpeer ⟨hnew, ?_, ?_⟩
      · rw [length_store (by omega), hlen]
      · rw [window_store_self (by omega)]
        exact hechoes.receive data
    | failed error =>
      simp only [Program.complete, hreq]
      refine he.report fun g hg => hthe ⟨hnew, hlen, ?_⟩ hg
      rw [window_zero_len]
      exact hechoes
    | accepted own => simp [Traffic.Permits, hreq] at hpermits
    | connected => simp [Traffic.Permits, hreq] at hpermits
    | sent => simp [Traffic.Permits, hreq] at hpermits
  | handleSend s buffer =>
    obtain ⟨rfl, done, rest, hreq⟩ := hawaits.2
    obtain ⟨hnew, hlen, hechoes⟩ := hduring
    have hleft := hechoes done rest hreq
    cases outcome with
    | sent =>
      simp only [Program.complete, hreq]
      simp only [Traffic.Permits, hreq, List.isEmpty_iff] at hpermits
      rw [hpermits] at hleft
      exact he.report fun g hg => hthe ⟨hnew, hlen, hleft⟩ hg
    | failed error =>
      simp only [Program.complete, hreq]
      exact (hcut rest).report fun g hg => hthe ⟨hnew, hlen, hleft.cut⟩ hg
    | accepted own => simp [Traffic.Permits, hreq] at hpermits
    | connected => simp [Traffic.Permits, hreq] at hpermits
    | received data => simp [Traffic.Permits, hreq] at hpermits
  | clientConnect s =>
    obtain ⟨rfl, hreq⟩ := hawaits.2
    cases outcome with
    | connected =>
      simp only [Program.complete, hreq]
      exact he.report fun g hg => hthe hduring hg
    | failed error =>
      simp only [Program.complete, hreq]
      exact he.report fun g hg => hthe hduring hg
    | accepted own => simp [Traffic.Permits, hreq] at hpermits
    | sent => simp [Traffic.Permits, hreq] at hpermits
    | received data => simp [Traffic.Permits, hreq] at hpermits
  | clientSend s =>
    obtain ⟨rfl, done, rest, hreq⟩ := hawaits.2
    cases outcome with
    | sent =>
      simp only [Program.complete, hreq]
      exact he.report fun g hg => hthe ⟨hduring.1, hduring.2.1⟩ hg
    | failed error =>
      simp only [Program.complete, hreq]
      exact (hcut rest).report fun g hg => hthe ⟨hduring.1, hduring.2.1⟩ hg
    | accepted own => simp [Traffic.Permits, hreq] at hpermits
    | connected => simp [Traffic.Permits, hreq] at hpermits
    | received data => simp [Traffic.Permits, hreq] at hpermits
  | clientRecv s recvBuf =>
    obtain ⟨rfl, hreq⟩ := hawaits.2
    obtain ⟨hclient, hconsumed, hlen⟩ := hduring
    cases outcome with
    | received data =>
      obtain ⟨hfits, hpeer⟩ := permits_received hreq hpermits
      simp only [Program.complete, hreq]
      refine he.received hs hf hawaits hpeer ⟨hclient, fun _ => ?_⟩
      show _ = Function.update p.traffic.consumed op.socket _ op.socket
      rw [window_store_self (by omega), Function.update_self, hconsumed, List.nil_append]
    | failed error =>
      simp only [Program.complete, hreq]
      have herror : error ≠ 0 := by simpa [Traffic.Permits] using hpermits
      exact he.report fun g hg => hthe ⟨hclient, fun hzero => absurd hzero herror⟩ hg
    | accepted own => simp [Traffic.Permits, hreq] at hpermits
    | connected => simp [Traffic.Permits, hreq] at hpermits
    | sent => simp [Traffic.Permits, hreq] at hpermits

/-- Bytes of a send are transmitted, when its operation is set apart. -/
theorem transmitted {n : ℕ} {done rest : List UInt8} (he : p.Echo)
    (hs : p.Safe (op :: p.outstanding) locals)
    (hf : objectAt p.frames op.overlapped.frame = some f) (hawaits : f.Awaits op)
    (hduring : f.During p.traffic op.request) (hreq : op.request = .send done rest) :
    { p with traffic := p.traffic.transmit op.socket (rest.take n) }.Echo ∧
      f.During (p.traffic.transmit op.socket (rest.take n))
        (.send (done ++ rest.take n) (rest.drop n)) := by
  have hlive : p.sockets.Live op.socket := hs.live_socket List.mem_cons_self
  have hother (s : ℕ) (hs' : s ∉ f.sockets) : s ≠ op.socket :=
    fun heq => hs' (heq ▸ hawaits.mem_sockets)
  have hset (hsound : (p.traffic.transmit op.socket (rest.take n)).Sound p.sockets.opened) :=
    he.setTraffic hs hf (fun s hs' => Traffic.agrees_transmit (hother s hs')) hsound
      (fun _ => List.prefix_refl _) rfl
  cases f with
  | handleSend s buffer =>
    obtain ⟨rfl, -⟩ := hawaits.2
    obtain ⟨hnew, hlen, hechoes⟩ := hduring
    have hleft := hechoes done rest hreq
    constructor
    · apply hset
      exact he.sound.transmit hlive.1 n (fun _ => hleft) fun hclient => absurd hclient hnew
    · refine ⟨hnew, hlen, fun done' rest' heq => ?_⟩
      obtain ⟨-, rfl⟩ := Request.send.inj heq
      exact hleft.transmit n
  | clientSend s =>
    obtain ⟨rfl, -⟩ := hawaits.2
    obtain ⟨hclient, hconsumed, hmessage⟩ := hduring
    have hleft := hmessage done rest hreq
    constructor
    · apply hset
      exact he.sound.transmit hlive.1 n (fun hnew => absurd hclient hnew) fun _ => hleft
    · refine ⟨hclient, hconsumed, fun done' rest' heq => ?_⟩
      obtain ⟨-, rfl⟩ := Request.send.inj heq
      show Function.update p.traffic.sent op.socket _ op.socket ++ _ = message
      rw [Function.update_self, List.append_assoc, List.take_append_drop]
      exact hleft
  | serverRun listenSock acceptSock => exact absurd (hreq.symm.trans hawaits.2.2) (by simp)
  | handleRecv s buffer => exact absurd (hreq.symm.trans hawaits.2.2) (by simp)
  | clientConnect s => exact absurd (hreq.symm.trans hawaits.2.2) (by simp)
  | clientRecv s recvBuf => exact absurd (hreq.symm.trans hawaits.2.2) (by simp)

/-- The operation that the kernel goes on with, set apart, and its coroutine. -/
theorem setApart (he : p.Echo) (hs : p.Safe p.outstanding []) (hk : p.pending[k]? = some op) :
    { p with pending := p.pending.eraseIdx k }.Echo ∧
      { p with pending := p.pending.eraseIdx k }.Safe
        (op :: { p with pending := p.pending.eraseIdx k }.outstanding) [] ∧
      ∃ f, objectAt p.frames op.overlapped.frame = some f ∧ f.Awaits op ∧
        f.During p.traffic op.request := by
  have hsafe : { p with pending := p.pending.eraseIdx k }.Safe
      (op :: { p with pending := p.pending.eraseIdx k }.outstanding) [] :=
    { hs.perm (perm_outstanding_pending hk) with }
  obtain ⟨f, hf, hawaits⟩ := hsafe.exists_frame
  refine ⟨{ he with each := he.each.erase k }, hsafe, f, hf, hawaits, ?_⟩
  exact he.each.pending op (List.mem_of_getElem? hk) f hf

theorem transmit {n : ℕ} {done rest : List UInt8} (he : p.Echo) (hs : p.Safe p.outstanding [])
    (hk : p.pending[k]? = some op) (hreq : op.request = .send done rest) :
    (p.transmit k n op done rest).Echo := by
  obtain ⟨hecho, hsafe, f, hf, hawaits, hduring⟩ := he.setApart hs hk
  obtain ⟨hsent, hnow⟩ := hecho.transmitted (n := n) hsafe hf hawaits hduring hreq
  have heach := Each.insert (p := { p with traffic := p.traffic.transmit op.socket (rest.take n) })
    hk hsent.each { op with request := .send (done ++ rest.take n) (rest.drop n) }
    fun g hg => Option.some.inj (hf.symm.trans hg) ▸ hnow
  exact ⟨heach, hsent.sound, hsent.printed⟩

end Echo

/-! ## Results -/

/-- No socket is connected before `Client::Run()`. -/
def Early (p : Program) : Prop := p.main = .server ∨ p.main = .client → p.traffic.client = none

theorem step_echo {e : Event} (hs : p.Safe p.outstanding []) (he : p.Echo) (hearly : p.Early)
    (hstep : p.step e = some q) : q.Echo ∧ q.Early := by
  cases stepsTo_of_step hstep with
  | serverRun answer hmain =>
    refine ⟨(he.serverRun hs answer).setMain .client, fun _ => ?_⟩
    obtain ⟨unclosed, hkeeps, -⟩ := keeps_serverRun (p := p)
    show (p.serverRun answer).traffic.client = none
    rw [hkeeps.traffic]
    exact hearly (Or.inl hmain)
  | clientRun answer hmain =>
    refine ⟨(he.clientRun hs (hearly (Or.inr hmain)) answer).setMain .loop, ?_⟩
    rintro (hmain' | hmain')
    · contradiction
    · contradiction
  | dequeue packet port answers hmain hstop hport =>
    refine ⟨he.dispatch hs hport answers, ?_⟩
    rw [Early, delivers_dispatch.main]
    show p.main = .server ∨ p.main = .client → _
    rw [hmain]
    rintro (hmain' | hmain')
    · contradiction
    · contradiction
  | exit hmain hstop =>
    refine ⟨he.setMain .exited, ?_⟩
    rintro (hmain' | hmain')
    · contradiction
    · contradiction
  | transmit k n op done rest hk hreq => exact ⟨he.transmit hs hk hreq, hearly⟩
  | complete k op outcome hk hpermits =>
    obtain ⟨hecho, hsafe, f, hf, hawaits, hduring⟩ := he.setApart hs hk
    refine ⟨hecho.complete hsafe hf hawaits hduring hpermits, ?_⟩
    rw [Early, undisturbed_complete.main, undisturbed_complete.client]
    exact hearly

theorem run_echo {es : List Event} (hrun : Foundation.run step start es = some p) : p.Echo := by
  have hall := run_invariant (fun p : Program => p.Safe p.outstanding [] ∧ p.Echo ∧ p.Early)
    (fun _ _ _ h hstep => ⟨h.1.step hstep, step_echo h.1 h.2.1 h.2.2 hstep⟩) hrun
    ⟨Safe.start, Echo.start, fun _ => rfl⟩
  exact hall.2.1

/-- **Echo.** In every run, whatever the calls answer, however the connections cut and delay the
bytes, and whoever else connects: what goes back over a connection of the server are bytes that
came, in their order, and the beginning of them where no send ended early. So if the server has
accepted the connection of `Client::Run`, the text that this prints are bytes of its message in
their order, and the beginning of the message where no send ended early. -/
theorem echo_run {t : Program} {es : List Event} (hrun : Foundation.run step start es = some t) :
    (∀ s, t.traffic.client ≠ some s →
      (t.traffic.sent s).Sublist (t.traffic.consumed s) ∧
        (t.traffic.short = false → t.traffic.sent s <+: t.traffic.consumed s)) ∧
      ∀ text a, .received text ∈ t.output → t.traffic.link = some a →
        text.Sublist message ∧ (t.traffic.short = false → text <+: message) := by
  have he := run_echo hrun
  constructor
  · intro s hs
    exact ⟨(he.sound.follows s hs).sublist, (he.sound.follows s hs).isPrefix⟩
  · intro text a htext ha
    obtain ⟨c, hc, hprinted⟩ := he.printed text htext
    obtain ⟨c', hc', hne, hup, hdown⟩ := he.sound.link a ha
    obtain rfl : c = c' := Option.some.inj (hc.symm.trans hc')
    -- the text came from the server, and what the server sent came from the client
    have hfollows : t.traffic.Follows a := he.sound.follows a fun hclient =>
      hne (Option.some.inj (hc.symm.trans hclient))
    have hback : text <+: t.traffic.sent a := hprinted.trans hdown
    have hcame : t.traffic.consumed a <+: message := hup.trans (he.sound.client c hc).2
    constructor
    · exact (hback.sublist.trans hfollows.sublist).trans hcame.sublist
    · intro hshort
      exact (hback.trans (hfollows.isPrefix hshort)).trans hcame

/-- The client has got back the first five bytes. -/
theorem echo_session : ∃ t, Foundation.run step start session = some t ∧
    .received (message.take 5) ∈ t.output ∧ message.take 5 <+: message := by
  obtain ⟨t, ht, htext, hlink, hshort⟩ : ∃ t, Foundation.run step start session = some t ∧
      .received (message.take 5) ∈ t.output ∧ t.traffic.link = some 1 ∧
        t.traffic.short = false := by
    have hany : (Foundation.run step start session).any (fun t =>
        decide (.received (message.take 5) ∈ t.output ∧ t.traffic.link = some 1 ∧
          t.traffic.short = false)) = true := by decide
    obtain ⟨t, ht, hall⟩ := (Option.any_eq_true _ _).mp hany
    exact ⟨t, ht, of_decide_eq_true hall⟩
  exact ⟨t, ht, htext, ((echo_run ht).2 _ 1 htext hlink).2 hshort⟩

end Program

end Win32Experiments.WinsockCoroutineJunie
