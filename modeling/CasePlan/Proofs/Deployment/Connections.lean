import CasePlan.Deployment.Client

/-!
# Connections of a client

A client opens a connection when it needs one and keeps it until it is closed.  So of all its
connections only the latest can be open, and it opens one more at most after each closing.

* `Client.Use`, `Client.use`: what is done with a client, step by step.
* `Client.Orderly`: only the latest connection can be open, and all wait as long as the settings say;
  `orderly_use` is the step and `orderly_useAll` the run.
* `countP_isOpen_le_one`, `length_connections_useAll_le`: how many are open, and how many there are.
* `useAll_of_not_closing`: requests in a row go over one connection.
-/

namespace CasePlan.Client

variable {c : Client}

/-! ## Single steps -/

theorem isConnected_connect (c : Client) : c.connect.isConnected = true := by
  unfold connect
  split
  · assumption
  · rfl

theorem connect_of_isConnected (h : c.isConnected = true) : c.connect = c := if_pos h

/-- A connection that is open is kept. -/
theorem connect_connect (c : Client) : c.connect.connect = c.connect :=
  connect_of_isConnected c.isConnected_connect

theorem isConnected_close (c : Client) : c.close.isConnected = false := by
  obtain ⟨config, _ | ⟨latest, rest⟩⟩ := c <;> rfl

theorem length_connections_close (c : Client) :
    c.close.connections.length = c.connections.length := by
  obtain ⟨config, _ | ⟨latest, rest⟩⟩ := c <;> rfl

/-- What is done with a client. -/
inductive Use where
  /-- A request is sent, if one could be made, and replied to. -/
  | send (request? : Except DeploymentError Request) (reply : Reply)
  /-- The connection is closed. -/
  | close

/-- Whether a use needs a connection. -/
def Use.isSent : Use → Bool
  | .send (.ok _) _ => true
  | _ => false

/-- Whether a use closes the connection. -/
def Use.isClosing : Use → Bool
  | .send _ _ => false
  | .close => true

/-- The client after a use. -/
def use (c : Client) : Use → Client
  | .send request? reply => (c.send request? reply).2
  | .close => c.close

/-- The client after some uses, one after another. -/
def useAll (c : Client) (uses : List Use) : Client := uses.foldl use c

/-- A use leaves the client as it is, connects it or closes its connection. -/
theorem use_cases (c : Client) (u : Use) :
    (u.isSent = true ∧ c.use u = c.connect) ∨ (u.isClosing = true ∧ c.use u = c.close) ∨
      (u.isSent = false ∧ u.isClosing = false ∧ c.use u = c) := by
  cases u with
  | send request? reply =>
    cases request? with
    | error e => exact .inr (.inr ⟨rfl, rfl, rfl⟩)
    | ok request => exact .inl ⟨rfl, rfl⟩
  | close => exact .inr (.inl ⟨rfl, rfl⟩)

/-! ## What every use keeps -/

/-- Only the latest connection can be open, and all wait as long as the settings say. -/
structure Orderly (c : Client) : Prop where
  /-- The others are closed. -/
  closed : ∀ k ∈ c.connections.tail, k.isClosed = true
  /-- They wait as long. -/
  timeout : ∀ k ∈ c.connections, k.timeout = c.config.timeout

theorem Orderly.connect (h : c.Orderly) : c.connect.Orderly := by
  unfold Client.connect
  split
  · exact h
  · next hconnected =>
    obtain ⟨config, _ | ⟨latest, rest⟩⟩ := c
    · exact ⟨nofun, List.forall_mem_singleton.2 rfl⟩
    · have hlatest : latest.isClosed = true := by simpa [isConnected] using hconnected
      exact ⟨List.forall_mem_cons.2 ⟨hlatest, h.closed⟩, List.forall_mem_cons.2 ⟨rfl, h.timeout⟩⟩

theorem Orderly.close (h : c.Orderly) : c.close.Orderly := by
  obtain ⟨config, _ | ⟨latest, rest⟩⟩ := c
  · exact h
  · exact ⟨h.closed, List.forall_mem_cons.2 (List.forall_mem_cons.1 h.timeout)⟩

/-- One use keeps the connections in order. -/
theorem orderly_use (h : c.Orderly) (u : Use) : (c.use u).Orderly := by
  rcases use_cases c u with ⟨-, hu⟩ | ⟨-, hu⟩ | ⟨-, -, hu⟩
  · rw [hu]
    exact h.connect
  · rw [hu]
    exact h.close
  · rw [hu]
    exact h

/-- Any number of uses does. -/
theorem orderly_useAll (h : c.Orderly) (uses : List Use) : (c.useAll uses).Orderly := by
  induction uses generalizing c with
  | nil => exact h
  | cons u uses ih => exact ih (orderly_use h u)

/-- The connections of a client that started with none: one is open at most. -/
theorem countP_isOpen_le_one (config : DeploymentConfig) (uses : List Use) :
    ((useAll { config } uses).connections.countP fun k => !k.isClosed) ≤ 1 := by
  have hnew : Orderly { config } := ⟨nofun, nofun⟩
  have hclosed := (orderly_useAll hnew uses).closed
  cases hconnections : (useAll { config } uses).connections with
  | nil => exact Nat.zero_le 1
  | cons latest rest =>
    rw [hconnections] at hclosed
    have hrest : rest.countP (fun k => !k.isClosed) = 0 :=
      List.countP_eq_zero.2 fun k hk => by simp [hclosed k hk]
    rw [List.countP_cons, hrest]
    split <;> decide

/-! ## How many connections there are -/

/-- The connections that a client has, and the one that it may open. -/
def budget (c : Client) : Nat := c.connections.length + if c.isConnected then 0 else 1

theorem budget_connect (c : Client) : c.connect.budget = c.budget := by
  cases h : c.isConnected
  · have hconnect : c.connect.connections.length = c.connections.length + 1 := by
      rw [connect, h, if_neg Bool.false_ne_true]
      rfl
    rw [budget, budget, isConnected_connect, h, hconnect]
    rfl
  · rw [connect_of_isConnected h]

theorem budget_close_le (c : Client) : c.close.budget ≤ c.budget + 1 := by
  rw [budget, budget, isConnected_close, length_connections_close, if_neg Bool.false_ne_true]
  omega

theorem budget_use_le (c : Client) (u : Use) :
    (c.use u).budget ≤ c.budget + (if u.isClosing then 1 else 0) := by
  rcases use_cases c u with ⟨-, hu⟩ | ⟨hclosing, hu⟩ | ⟨-, -, hu⟩
  · rw [hu, budget_connect]
    exact Nat.le_add_right _ _
  · rw [hu, hclosing]
    exact budget_close_le c
  · rw [hu]
    exact Nat.le_add_right _ _

theorem budget_useAll_le (c : Client) (uses : List Use) :
    (c.useAll uses).budget ≤ c.budget + uses.countP Use.isClosing := by
  induction uses generalizing c with
  | nil => exact Nat.le_refl _
  | cons u uses ih =>
    have hrest := ih (c.use u)
    have hstep := budget_use_le c u
    rw [List.countP_cons]
    show ((c.use u).useAll uses).budget ≤ _
    omega

/-- A client that started with none has one connection more than it was closed, at most. -/
theorem length_connections_useAll_le (config : DeploymentConfig) (uses : List Use) :
    (useAll { config } uses).connections.length ≤ uses.countP Use.isClosing + 1 := by
  have h : (useAll { config } uses).budget ≤ 1 + uses.countP Use.isClosing :=
    budget_useAll_le { config } uses
  rw [budget] at h
  omega

/-- Requests in a row go over one connection: without a closing between them the client is connected
once, by the first. -/
theorem useAll_of_not_closing {uses : List Use} (h : ∀ u ∈ uses, u.isClosing = false) (c : Client) :
    c.useAll uses = if uses.any Use.isSent then c.connect else c := by
  induction uses generalizing c with
  | nil => rfl
  | cons u uses ih =>
    obtain ⟨hu, hrest⟩ := List.forall_mem_cons.1 h
    rw [List.any_cons]
    refine (ih hrest (c.use u)).trans ?_
    rcases use_cases c u with ⟨hsent, huse⟩ | ⟨hclosing, -⟩ | ⟨hsent, -, huse⟩
    · rw [huse, hsent, Bool.true_or, if_pos rfl, connect_connect]
      exact ite_self _
    · exact absurd (hu.symm.trans hclosing) Bool.false_ne_true
    · rw [huse, hsent, Bool.false_or]

end CasePlan.Client
