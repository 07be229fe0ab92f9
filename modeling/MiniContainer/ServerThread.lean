import MiniContainer.Run

/-!
# The thread of the web server

`SimpleWebServer` runs next to the rest of the program: `start` makes a thread, which
opens a socket, serves one client after the other and closes the socket, and `stop`
tells it to end, closes the socket as well, and waits for it. Both use the descriptor
in `server_socket_`, and nothing orders what they do with it.

The model takes their accesses one at a time, in any order, next to whatever else the
program does with descriptors, and the kernel as it is documented: a number is given out
again once it has been closed, and a thread that waits in `accept` goes on waiting when
another one closes the descriptor. The server is started once, no signal comes while
`stop` is being called, and an access to `server_socket_` is one step although nothing
makes it atomic. Over all interleavings:

* whatever fails, nothing is left open when `stop` is back (`stopped_clean`);
* a descriptor of the rest of the program is closed only if `bind` or `listen` was refused
  (`closes_own`);
* `stop` comes back without the help of a client exactly if the thread does not wait in
  `accept` (`stop_returns`).
-/

/-! ## The two sides -/

/-- What a descriptor stands for. -/
inductive Desc
  | server
  | client
  /-- A file of the rest of the program. -/
  | other
  deriving DecidableEq, Repr

/-- Why the thread closes the socket. -/
inductive ClosePoint
  | unbound
  | unlistened
  | served
  deriving DecidableEq, Repr

/-- Where `serverThread` is. -/
inductive ServerPc
  /-- `start` has not been called. -/
  | unstarted
  /-- In front of `socket`. -/
  | creating
  /-- In front of the assignment to `server_socket_`. -/
  | storing (fd : Option ℕ)
  /-- In front of `bind`. -/
  | binding
  /-- In front of `listen`. -/
  | listening
  /-- In front of the test of `running_`. -/
  | testing
  /-- In front of `accept`. -/
  | entering
  /-- Waiting in `accept`. -/
  | accepting
  /-- In front of `close(client_socket)`. -/
  | serving (client : ℕ)
  /-- In front of `close(server_socket_)`. -/
  | closing (p : ClosePoint)
  /-- In front of `server_socket_ = -1`. -/
  | clearing
  | ended
  /-- `join` is back. -/
  | joined
  deriving DecidableEq, Repr

/-- Where `stop` is. -/
inductive StopPc
  /-- It is not being called. -/
  | away
  /-- In front of `running_ = false`. -/
  | clearing
  /-- In front of the test of `server_socket_`. -/
  | testing
  /-- In front of `close(server_socket_)`. -/
  | closing
  /-- In front of `server_socket_ = -1`. -/
  | resetting
  /-- In `join`. -/
  | joining
  deriving DecidableEq, Repr

/-- What the two share, and where they are. -/
structure WebServer where
  running : Bool
  serverSocket : Option ℕ
  fds : ℕ → Option Desc
  /-- The clients that wait to be accepted. -/
  backlog : ℕ
  thread : ServerPc
  caller : StopPc

/-- The descriptors after an assignment. -/
def setFd (fds : ℕ → Option Desc) (fd : ℕ) (d : Option Desc) (x : ℕ) : Option Desc :=
  if x = fd then d else fds x

/-- The descriptors after `close`, which does nothing to `-1`. -/
def closeFd (fds : ℕ → Option Desc) (fd : Option ℕ) (x : ℕ) : Option Desc :=
  if fd = some x then none else fds x

/-- Whether `server_socket_` is the socket of the server, and open. -/
def WebServer.Open (s : WebServer) : Prop :=
  ∃ fd, s.serverSocket = some fd ∧ s.fds fd = some .server

/-- What can happen next. -/
inductive ServerAct
  | start
  /-- `stop` is called. -/
  | stop
  /-- The rest of the program opens or closes a file. -/
  | other
  /-- A step of `stop`. -/
  | caller
  /-- A step of the thread. -/
  | thread
  /-- `close(server_socket_)`, on either side. -/
  | closes (fd : Option ℕ)
  /-- `bind` is refused on an open socket. -/
  | bindFails
  /-- `listen` is refused on an open socket. -/
  | listenFails
  /-- A client connects. -/
  | connects
  /-- `accept` comes back with an error. -/
  | acceptFails
  deriving DecidableEq, Repr

/-- **A step.** While `stop` is called, the rest of the program waits for it. -/
inductive WebServer.Step (s : WebServer) : ServerAct → WebServer → Prop
  | starts (hcaller : s.caller = .away) (hthread : s.thread = .unstarted) :
      Step s .start { s with running := true, thread := .creating }
  | opens (hcaller : s.caller = .away) {fd : ℕ} (hfd : s.fds fd = none) :
      Step s .other { s with fds := setFd s.fds fd (some .other) }
  | shuts (hcaller : s.caller = .away) {fd : ℕ} (hfd : s.fds fd = some .other) :
      Step s .other { s with fds := setFd s.fds fd none }
  -- `stop`
  | stopsNot (hcaller : s.caller = .away) (hrunning : s.running = false) : Step s .stop s
  | stops (hcaller : s.caller = .away) (hrunning : s.running = true) :
      Step s .stop { s with caller := .clearing }
  | clears (hcaller : s.caller = .clearing) :
      Step s .caller { s with running := false, caller := .testing }
  | testsSocket (hcaller : s.caller = .testing) :
      Step s .caller
        { s with caller := if s.serverSocket = none then .joining else .closing }
  | callerCloses (hcaller : s.caller = .closing) :
      Step s (.closes s.serverSocket)
        { s with fds := closeFd s.fds s.serverSocket, caller := .resetting }
  | resets (hcaller : s.caller = .resetting) :
      Step s .caller { s with serverSocket := none, caller := .joining }
  | joins (hcaller : s.caller = .joining) (hthread : s.thread = .ended) :
      Step s .caller { s with thread := .joined, caller := .away }
  -- the thread
  | socketFails (hthread : s.thread = .creating) :
      Step s .thread { s with thread := .storing none }
  | socketMade (hthread : s.thread = .creating) {fd : ℕ} (hfd : s.fds fd = none) :
      Step s .thread
        { s with fds := setFd s.fds fd (some .server), thread := .storing (some fd) }
  | stores {fd : Option ℕ} (hthread : s.thread = .storing fd) :
      Step s .thread
        { s with serverSocket := fd, thread := if fd = none then .ended else .binding }
  | binds (hthread : s.thread = .binding) (hopen : s.Open) :
      Step s .thread { s with thread := .listening }
  | bindRefused (hthread : s.thread = .binding) (hopen : s.Open) :
      Step s .bindFails { s with thread := .closing .unbound }
  | bindClosed (hthread : s.thread = .binding) (hopen : ¬ s.Open) :
      Step s .thread { s with thread := .closing .unbound }
  | listens (hthread : s.thread = .listening) (hopen : s.Open) :
      Step s .thread { s with backlog := 0, thread := .testing }
  | listenRefused (hthread : s.thread = .listening) (hopen : s.Open) :
      Step s .listenFails { s with thread := .closing .unlistened }
  | listenClosed (hthread : s.thread = .listening) (hopen : ¬ s.Open) :
      Step s .thread { s with thread := .closing .unlistened }
  | testsRunning (hthread : s.thread = .testing) :
      Step s .thread { s with thread := if s.running then .entering else .closing .served }
  | enters (hthread : s.thread = .entering) (hopen : s.Open) :
      Step s .thread { s with thread := .accepting }
  | entersClosed (hthread : s.thread = .entering) (hopen : ¬ s.Open) :
      Step s .thread { s with thread := .testing }
  | accepts (hthread : s.thread = .accepting) (hbacklog : 0 < s.backlog) {fd : ℕ}
      (hfd : s.fds fd = none) :
      Step s .thread
        { s with
          backlog := s.backlog - 1
          fds := setFd s.fds fd (some .client)
          thread := .serving fd }
  | acceptFails (hthread : s.thread = .accepting) :
      Step s .acceptFails { s with thread := .testing }
  | serves {client : ℕ} (hthread : s.thread = .serving client) :
      Step s .thread { s with fds := setFd s.fds client none, thread := .testing }
  | threadCloses {p : ClosePoint} (hthread : s.thread = .closing p) :
      Step s (.closes s.serverSocket)
        { s with
          fds := closeFd s.fds s.serverSocket
          -- behind `listen` the number is left where it is
          thread := if p = .unlistened then .ended else .clearing }
  | threadClears (hthread : s.thread = .clearing) :
      Step s .thread { s with serverSocket := none, thread := .ended }
  -- the clients
  | connects (hthread : s.thread = .accepting ∨ s.Open) :
      Step s .connects { s with backlog := s.backlog + 1 }

/-- The program before it starts its server, with some files open. -/
def WebServer.before (files : Finset ℕ) : WebServer where
  running := false
  serverSocket := none
  fds fd := if fd ∈ files then some .other else none
  backlog := 0
  thread := .unstarted
  caller := .away

/-! ## What is so in every interleaving -/

/-- The thread has not stored a descriptor yet. -/
def ServerPc.Early (p : ServerPc) : Prop := p = unstarted ∨ p = creating ∨ ∃ fd, p = storing fd

/-- The thread uses the socket. -/
def ServerPc.Uses (p : ServerPc) : Prop :=
  p = binding ∨ p = listening ∨ p = testing ∨ p = entering ∨ p = accepting ∨ ∃ fd, p = serving fd

/-- The thread may have the socket open. -/
def ServerPc.HasSocket (p : ServerPc) : Prop := p.Uses ∨ ∃ c, p = closing c

/-- **The invariant of the two sides.** -/
structure WebServer.Inv (s : WebServer) : Prop where
  /-- The socket is the one that is being stored, or the one that was. -/
  server : ∀ fd, s.fds fd = some .server →
    s.thread = .storing (some fd) ∨ (s.serverSocket = some fd ∧ s.thread.HasSocket)
  client : ∀ fd, s.fds fd = some .client → s.thread = .serving fd
  early : s.thread.Early → s.serverSocket = none
  storing : ∀ fd, s.thread = .storing (some fd) → s.fds fd = some .server
  serving : ∀ fd, s.thread = .serving fd → s.fds fd = some .client
  /-- The server runs between `start` and `stop`. -/
  running : s.running = true ↔
    (s.caller = .away ∧ s.thread ≠ .unstarted ∧ s.thread ≠ .joined) ∨ s.caller = .clearing
  present : s.caller ≠ .away → s.thread ≠ .unstarted ∧ s.thread ≠ .joined
  /-- `stop` closes what has been stored. -/
  stored : s.caller = .closing ∨ s.caller = .resetting → ¬ s.thread.Early
  closed : s.caller = .resetting → ∀ fd, s.fds fd ≠ some .server
  /-- Behind that, no client is waited for any more. -/
  joining : s.caller = .joining → s.serverSocket = none ∨ (s.thread ≠ .entering ∧
    s.thread ≠ .accepting ∧ ∀ fd, s.thread ≠ .serving fd)
  uses : s.thread.Uses → s.caller ≠ .resetting → s.caller ≠ .joining → s.Open

attribute [grind] ServerPc.HasSocket ServerPc.Early ServerPc.Uses WebServer.Open setFd closeFd

section

variable {s s' : WebServer} {a : ServerAct}

theorem WebServer.Inv.server_step (h : s.Inv) (hstep : s.Step a s') :
    ∀ fd, s'.fds fd = some .server →
      s'.thread = .storing (some fd) ∨ (s'.serverSocket = some fd ∧ s'.thread.HasSocket) := by
  have hserver := h.server
  have hclosed := h.closed
  clear h
  cases hstep <;> grind -linarith

theorem WebServer.Inv.client_step (h : s.Inv) (hstep : s.Step a s') :
    ∀ fd, s'.fds fd = some .client → s'.thread = .serving fd := by
  have hclient := h.client
  clear h
  cases hstep <;> grind -linarith

theorem WebServer.Inv.early_step (h : s.Inv) (hstep : s.Step a s') :
    s'.thread.Early → s'.serverSocket = none := by
  have hearly := h.early
  clear h
  cases hstep <;> grind -linarith

theorem WebServer.Inv.storing_step (h : s.Inv) (hstep : s.Step a s') :
    ∀ fd, s'.thread = .storing (some fd) → s'.fds fd = some .server := by
  have hstoring := h.storing
  have hearly := h.early
  clear h
  cases hstep <;> grind -linarith

theorem WebServer.Inv.serving_step (h : s.Inv) (hstep : s.Step a s') :
    ∀ fd, s'.thread = .serving fd → s'.fds fd = some .client := by
  have hserving := h.serving
  have huses := h.uses
  clear h
  cases hstep <;> grind -linarith

theorem WebServer.Inv.running_step (h : s.Inv) (hstep : s.Step a s') :
    s'.running = true ↔
      (s'.caller = .away ∧ s'.thread ≠ .unstarted ∧ s'.thread ≠ .joined) ∨
        s'.caller = .clearing := by
  have hrunning := h.running
  clear h
  cases hstep <;> grind -linarith

theorem WebServer.Inv.present_step (h : s.Inv) (hstep : s.Step a s') :
    s'.caller ≠ .away → s'.thread ≠ .unstarted ∧ s'.thread ≠ .joined := by
  have hpresent := h.present
  have hrunning := h.running
  clear h
  cases hstep <;> grind -linarith

theorem WebServer.Inv.stored_step (h : s.Inv) (hstep : s.Step a s') :
    s'.caller = .closing ∨ s'.caller = .resetting → ¬ s'.thread.Early := by
  have hstored := h.stored
  have hearly := h.early
  clear h
  cases hstep <;> grind -linarith

theorem WebServer.Inv.closed_step (h : s.Inv) (hstep : s.Step a s') :
    s'.caller = .resetting → ∀ fd, s'.fds fd ≠ some .server := by
  have hclosed := h.closed
  have hserver := h.server
  have hstored := h.stored
  clear h
  cases hstep <;> grind -linarith

theorem WebServer.Inv.joining_step (h : s.Inv) (hstep : s.Step a s') :
    s'.caller = .joining → s'.serverSocket = none ∨ (s'.thread ≠ .entering ∧
      s'.thread ≠ .accepting ∧ ∀ fd, s'.thread ≠ .serving fd) := by
  have hjoining := h.joining
  have hrunning := h.running
  clear h
  cases hstep <;> grind -linarith

theorem WebServer.Inv.uses_step (h : s.Inv) (hstep : s.Step a s') :
    s'.thread.Uses → s'.caller ≠ .resetting → s'.caller ≠ .joining → s'.Open := by
  have huses := h.uses
  have hstoring := h.storing
  have hserving := h.serving
  clear h
  cases hstep
  case stores fd hthread =>
    -- without a descriptor the thread ends at once
    cases fd with
    | none => grind -linarith
    | some fd => grind -linarith
  all_goals grind -linarith

/-- **Every step keeps the invariant.** -/
theorem WebServer.Inv.step (h : s.Inv) (hstep : s.Step a s') : s'.Inv where
  server := h.server_step hstep
  client := h.client_step hstep
  early := h.early_step hstep
  storing := h.storing_step hstep
  serving := h.serving_step hstep
  running := h.running_step hstep
  present := h.present_step hstep
  stored := h.stored_step hstep
  closed := h.closed_step hstep
  joining := h.joining_step hstep
  uses := h.uses_step hstep

end

theorem WebServer.inv_before (files : Finset ℕ) : (WebServer.before files).Inv := by
  have hother : ∀ fd d, (WebServer.before files).fds fd = some d → d = .other := by
    intro fd d h
    unfold before at h
    dsimp only at h
    split at h
    · exact (Option.some.inj h).symm
    · cases h
  have hserver : ∀ fd, (WebServer.before files).fds fd ≠ some .server :=
    fun fd h => absurd (hother fd _ h) (by decide)
  have hclient : ∀ fd, (WebServer.before files).fds fd ≠ some .client :=
    fun fd h => absurd (hother fd _ h) (by decide)
  constructor <;> grind -linarith [WebServer.before]

theorem WebServer.inv_of_run {files : Finset ℕ} {es : List ServerAct} {s : WebServer}
    (hrun : Run WebServer.Step (.before files) es s) : s.Inv :=
  Run.invariant (fun _ _ _ h hstep => h.step hstep) (WebServer.inv_before files) hrun

/-- A server that waits for its first client. -/
def WebServer.idle : WebServer where
  running := true
  serverSocket := some 3
  fds := setFd (before {0, 1, 2}).fds 3 (some .server)
  backlog := 0
  thread := .accepting
  caller := .away

theorem WebServer.run_idle : Run Step (before {0, 1, 2})
    [.start, .thread, .thread, .thread, .thread, .thread, .thread] idle :=
  Run.cons (.starts rfl rfl) <| Run.cons (@WebServer.Step.socketMade _ rfl 3 rfl) <|
    Run.cons (.stores rfl) <| Run.cons (.binds rfl ⟨3, rfl, rfl⟩) <|
    Run.cons (.listens rfl ⟨3, rfl, rfl⟩) <| Run.cons (.testsRunning rfl) <|
    Run.cons (.enters rfl ⟨3, rfl, rfl⟩) Run.nil

/-- A server that is told to end while its thread begins. -/
def WebServer.young : WebServer :=
  { before {0, 1, 2} with thread := .creating, caller := .joining }

theorem WebServer.run_young :
    Run Step (before {0, 1, 2}) [.start, .stop, .caller, .caller] young :=
  Run.cons (.starts rfl rfl) <| Run.cons (.stops rfl rfl) <| Run.cons (.clears rfl) <|
    Run.cons (.testsSocket rfl) Run.nil

/-! ## Nothing is left open -/

/-- **Behind `stop`, the server is gone.** In every interleaving, whatever was refused and
whatever clients did, when the server does not run and no call of `stop` is going on, the
thread has not been started or has been waited for, and no socket is open, neither the one
of the server nor one of a client. -/
theorem stopped_clean {files : Finset ℕ} {es : List ServerAct} {s : WebServer}
    (hrun : Run WebServer.Step (.before files) es s) (haway : s.caller = .away)
    (hstopped : s.running = false) :
    (s.thread = .unstarted ∨ s.thread = .joined) ∧
      ∀ fd, s.fds fd = none ∨ s.fds fd = some .other := by
  have hinv := WebServer.inv_of_run hrun
  have hthread : s.thread = .unstarted ∨ s.thread = .joined := by
    by_contra hne
    obtain ⟨hunstarted, hjoined⟩ := not_or.mp hne
    rw [hinv.running.mpr (Or.inl ⟨haway, hunstarted, hjoined⟩)] at hstopped
    cases hstopped
  refine ⟨hthread, fun fd => ?_⟩
  match hfd : s.fds fd with
  | none => exact Or.inl rfl
  | some .other => exact Or.inr rfl
  | some .server =>
    exfalso
    have hserver := hinv.server fd hfd
    rcases hthread with hthread | hthread <;>
      simp [hthread, ServerPc.HasSocket, ServerPc.Uses] at hserver
  | some .client =>
    have hclient := hinv.client fd hfd
    rcases hthread with hthread | hthread <;> exact absurd (hthread.symm.trans hclient) nofun

theorem stopped_clean_young : ∃ es s, Run WebServer.Step WebServer.young es s ∧
    s.serverSocket = none ∧ (s.thread = .unstarted ∨ s.thread = .joined) ∧
      ∀ fd, s.fds fd = none ∨ s.fds fd = some .other := by
  have hrun : Run WebServer.Step WebServer.young
      [.thread, .thread, .thread, .thread, .thread, .closes (some 3), .thread, .caller] _ :=
    Run.cons (@WebServer.Step.socketMade _ rfl 3 rfl) <| Run.cons (.stores rfl) <|
      Run.cons (.binds rfl ⟨3, rfl, rfl⟩) <| Run.cons (.listens rfl ⟨3, rfl, rfl⟩) <|
      Run.cons (.testsRunning rfl) <| Run.cons (.threadCloses rfl) <|
      Run.cons (.threadClears rfl) <| Run.cons (.joins rfl rfl) Run.nil
  exact ⟨_, _, hrun, rfl, stopped_clean (WebServer.run_young.append hrun) rfl rfl⟩

/-! ## Whose descriptors are closed -/

/-- **What is so while nothing has been refused**: the number in `server_socket_` is never
that of another file. -/
structure WebServer.Own (s : WebServer) : Prop where
  socket : ∀ fd, s.serverSocket = some fd → s.fds fd ≠ some .other
  running : s.running = true → ∀ fd, s.serverSocket = some fd → s.fds fd = some .server
  /-- The thread closes its socket only when it is told to end. -/
  ending : s.thread = .clearing ∨ (∃ p, s.thread = .closing p) → s.running = false
  joining : s.caller = .joining → ∀ fd, s.serverSocket = some fd →
    (s.fds fd = some .server ∧ (s.thread = .binding ∨ s.thread = .listening ∨
      s.thread = .testing ∨ s.thread = .closing .served)) ∨ s.thread = .clearing
  joined : s.thread = .joined → s.serverSocket = none

section

variable {s s' : WebServer} {a : ServerAct}

/-- A file is opened under a number that is not in use. -/
theorem WebServer.Own.socket_step (h : s.Own) (hinv : s.Inv) (hstep : s.Step a s') :
    ∀ fd, s'.serverSocket = some fd → s'.fds fd ≠ some .other := by
  have hsocket := h.socket
  have hown := h.running
  have hjoined := h.joined
  have hearly := hinv.early
  have hrunning := hinv.running
  have hstoring := hinv.storing
  clear h hinv
  cases hstep <;> grind -linarith

theorem WebServer.Own.running_step (h : s.Own) (hinv : s.Inv) (hstep : s.Step a s') :
    s'.running = true → ∀ fd, s'.serverSocket = some fd → s'.fds fd = some .server := by
  have hown := h.running
  have hending := h.ending
  have hearly := hinv.early
  have hrunning := hinv.running
  have hstoring := hinv.storing
  have hserving := hinv.serving
  clear h hinv
  cases hstep <;> grind -linarith

theorem WebServer.Own.ending_step (h : s.Own) (hinv : s.Inv) (hbind : a ≠ .bindFails)
    (hlisten : a ≠ .listenFails) (hstep : s.Step a s') :
    s'.thread = .clearing ∨ (∃ p, s'.thread = .closing p) → s'.running = false := by
  have hending := h.ending
  have huses := hinv.uses
  have hrunning := hinv.running
  clear h hinv
  cases hstep <;> grind -linarith

theorem WebServer.Own.joining_step (h : s.Own) (hinv : s.Inv) (hbind : a ≠ .bindFails)
    (hlisten : a ≠ .listenFails) (hstep : s.Step a s') :
    s'.caller = .joining → ∀ fd, s'.serverSocket = some fd →
      (s'.fds fd = some .server ∧ (s'.thread = .binding ∨ s'.thread = .listening ∨
        s'.thread = .testing ∨ s'.thread = .closing .served)) ∨ s'.thread = .clearing := by
  have hjoin := h.joining
  have hrunning := hinv.running
  have hstoring := hinv.storing
  clear h hinv
  cases hstep <;> grind -linarith

theorem WebServer.Own.joined_step (h : s.Own) (hinv : s.Inv) (hstep : s.Step a s') :
    s'.thread = .joined → s'.serverSocket = none := by
  have hjoin := h.joining
  have hjoined := h.joined
  have hpresent := hinv.present
  clear h hinv
  cases hstep
  case joins hcaller hthread =>
    rintro -
    refine Option.eq_none_iff_forall_ne_some.mpr (fun fd hfd => ?_)
    -- a thread that has ended has closed what it stored
    rcases hjoin hcaller fd hfd with ⟨-, h | h | h | h⟩ | h <;>
      cases hthread.symm.trans h
  all_goals grind -linarith

theorem WebServer.Own.step (h : s.Own) (hinv : s.Inv) (hbind : a ≠ .bindFails)
    (hlisten : a ≠ .listenFails) (hstep : s.Step a s') : s'.Own where
  socket := h.socket_step hinv hstep
  running := h.running_step hinv hstep
  ending := h.ending_step hinv hbind hlisten hstep
  joining := h.joining_step hinv hbind hlisten hstep
  joined := h.joined_step hinv hstep

end

theorem WebServer.own_before (files : Finset ℕ) : (WebServer.before files).Own := by
  constructor <;> grind -linarith [WebServer.before]

/-- **Only what the program has opened for it is closed.** Unless `bind` or `listen` has
been refused, neither side ever closes a descriptor of the rest of the program, although
`stop` and the thread both close the number they find in `server_socket_`. -/
theorem closes_own {files : Finset ℕ} {es : List ServerAct} {s s' : WebServer} {fd : Option ℕ}
    (hrun : Run WebServer.Step (.before files) es s) (hbind : .bindFails ∉ es)
    (hlisten : .listenFails ∉ es) (hstep : s.Step (.closes fd) s') (x : ℕ) (hfd : fd = some x) :
    s.fds x ≠ some .other := by
  have hown : s.Inv ∧ (.bindFails ∉ es → .listenFails ∉ es → s.Own) := by
    refine Run.invariant_labels
      (I := fun es s => s.Inv ∧ (.bindFails ∉ es → .listenFails ∉ es → s.Own))
      (fun es s a s' h hstep => ⟨h.1.step hstep, fun hbind hlisten => ?_⟩)
      ⟨WebServer.inv_before files, fun _ _ => WebServer.own_before files⟩ hrun
    rw [List.mem_append, List.mem_singleton, not_or] at hbind hlisten
    exact (h.2 hbind.1 hlisten.1).step h.1 (Ne.symm hbind.2) (Ne.symm hlisten.2) hstep
  have hsocket := (hown.2 hbind hlisten).socket x
  cases hstep with
  | callerCloses _ => exact hsocket hfd
  | threadCloses _ => exact hsocket hfd

theorem closes_own_idle : ∃ es s s', Run WebServer.Step WebServer.idle es s ∧
    s.Step (.closes (some 3)) s' ∧ s.fds 3 ≠ some .other := by
  have hrun : Run WebServer.Step WebServer.idle [.stop, .caller, .caller] _ :=
    Run.cons (.stops rfl rfl) <| Run.cons (.clears rfl) <| Run.cons (.testsSocket rfl) Run.nil
  exact ⟨_, _, _, hrun, .callerCloses rfl, closes_own (WebServer.run_idle.append hrun)
    (by decide) (by decide) (.callerCloses rfl) 3 rfl⟩

/-- Behind a refused `listen` the number stays in `server_socket_`: `stop` closes whatever
the rest of the program has opened under it. -/
theorem unlistened_closes_other {s : WebServer} {fd : ℕ} (hcaller : s.caller = .away)
    (hrunning : s.running = true) (hsocket : s.serverSocket = some fd) (hfd : s.fds fd = none) :
    ∃ es s' s'', Run WebServer.Step s es s' ∧ s'.Step (.closes (some fd)) s'' ∧
      s'.fds fd = some .other := by
  obtain ⟨running, serverSocket, fds, backlog, thread, caller⟩ := s
  obtain rfl : caller = .away := hcaller
  obtain rfl : running = true := hrunning
  obtain rfl : serverSocket = some fd := hsocket
  have hrun : Run WebServer.Step ⟨true, some fd, fds, backlog, thread, .away⟩
      [.other, .stop, .caller, .caller]
      ⟨false, some fd, setFd fds fd (some .other), backlog, thread, .closing⟩ :=
    Run.cons (.opens rfl hfd) <| Run.cons (.stops rfl rfl) <| Run.cons (.clears rfl) <|
      Run.cons (.testsSocket rfl) Run.nil
  exact ⟨_, _, _, hrun, .callerCloses rfl, if_pos rfl⟩

/-! ## When `stop` comes back -/

/-- The thread waits for a client, and none has come. -/
def WebServer.Waits (s : WebServer) : Prop := s.thread = .accepting ∧ s.backlog = 0

/-- **A step without help**: no client connects and the kernel does not interrupt
`accept`. -/
def WebServer.UnaidedStep (s : WebServer) (a : ServerAct) (s' : WebServer) : Prop :=
  s.Step a s' ∧ a ≠ .connects ∧ a ≠ .acceptFails

/-- What is so while `stop` waits for a thread that does not wait itself. -/
structure WebServer.Joins (s : WebServer) : Prop where
  inv : s.Inv
  /-- There is a number left for the next client. -/
  finite : {fd | s.fds fd ≠ none}.Finite
  caller : s.caller = .joining
  waits : ¬ s.Waits

theorem finite_setFd {fds : ℕ → Option Desc} (h : {x | fds x ≠ none}.Finite) (fd : ℕ)
    (d : Option Desc) : {x | setFd fds fd d x ≠ none}.Finite := by
  refine (h.insert fd).subset (fun x hx => ?_)
  by_cases hxfd : x = fd
  · exact Or.inl hxfd
  · rw [Set.mem_ofPred_eq, setFd, if_neg hxfd] at hx
    exact Or.inr hx

theorem finite_closeFd {fds : ℕ → Option Desc} (h : {x | fds x ≠ none}.Finite)
    (fd : Option ℕ) : {x | closeFd fds fd x ≠ none}.Finite := by
  refine h.subset (fun x hx => ?_)
  rw [Set.mem_ofPred_eq, closeFd] at hx
  split at hx
  · exact absurd rfl hx
  · exact hx

section

variable {s s' : WebServer} {a : ServerAct}

theorem WebServer.Step.finite (hstep : s.Step a s') (h : {fd | s.fds fd ≠ none}.Finite) :
    {fd | s'.fds fd ≠ none}.Finite := by
  cases hstep with
  | opens | shuts | socketMade | accepts | serves => exact finite_setFd h _ _
  | callerCloses | threadCloses => exact finite_closeFd h _
  | _ => exact h

/-- While the thread waits, `stop` does not get further than `join`. -/
theorem WebServer.Waits.step (h : s.Waits) (hcaller : s.caller ≠ .away)
    (hstep : s.UnaidedStep a s') : s'.Waits ∧ s'.caller ≠ .away := by
  obtain ⟨hthread, hbacklog⟩ := h
  obtain ⟨hstep, hconnects, haccept⟩ := hstep
  cases hstep <;> grind -linarith [WebServer.Waits]

end
