import TronCourier.Manager.State

/-! Taking in requests. A request is looked at, its key is looked for, its message
is checked, and a place in the queue is taken. Then the store takes the transaction
in, and the queue gets it too. -/

namespace TronCourier.Manager

inductive Progress
  | waiting (submission : Submission)
  | accepted (id : String)
  | rejected (error : Error)

def submit (m : Manager) (r : Request) : Except Error Submission :=
  if m.lifecycle = .closed then .error .closed
  else match Abi.checkShape r.params with
    | .error e => .error (.invalidRequest e)
    | .ok _ => .ok (.probing r)

/-- Makes the transaction. A request without an id takes `fresh`. -/
def prepare (r : Request) (key : Option String) (fresh : String) : Progress :=
  .waiting (.reserving { Tx.ofRequest (r.id.getD fresh) r with key })

def reserve (m : Manager) (tx : Tx) : Manager × Progress :=
  if !m.queueOpen then (m, .rejected .closed)
  else if !m.hasRoom then (m, .rejected (.queueFull m.settings.queueCapacity))
  else ({ m with promised := m.promised + 1 }, .waiting (.admitting tx))

/-- Gives a place back. A poller that waits for one gets it. -/
def release (m : Manager) : Manager :=
  { m with promised := m.promised - 1, poller := m.poller.grant }

def takeIn (m : Manager) (tx : Tx) : Manager × Progress :=
  match (m.store tx.sender).addPending tx with
  | .error (.duplicateKey key) => (m.release, .rejected (.duplicateSubmission key))
  | .error e => (m.release, .rejected (.store e))
  | .ok s => ((m.setStore tx.sender s).record (.enqueued tx), .waiting (.delivering tx))

def deliver (m : Manager) (tx : Tx) : Manager × Progress :=
  let m := { m with queue := m.queue ++ [tx], promised := m.promised - 1 }
  (m.count fun c => { c with enqueued := c.enqueued + 1, queueDepth := m.queueLength },
    .accepted tx.id)

def proceed (m : Manager) (fresh : String) :
    (s : Submission) → s.Answer → Manager × Progress
  | .probing r, .error e => (m, .rejected (.unknownSigner r.sender e))
  | .probing r, .ok _ =>
    let m := { m with accounts := m.accounts.ensure r.sender }
    match r.about.bind Meta.soleMessage? with
    | some message =>
      if m.checksMessages then (m, .waiting (.checking r message)) else (m, prepare r none fresh)
    | none => (m, prepare r none fresh)
  | .checking _ _, .error reason => (m, .rejected (.statusCheck reason))
  | .checking r message, .ok retries =>
    let key := idempotencyKey message retries
    if (m.store r.sender).keys.contains key then (m, .rejected (.duplicateSubmission key))
    else (m, prepare r (some key) fresh)
  | .reserving tx, () => m.reserve tx
  | .admitting tx, () => m.takeIn tx
  | .delivering tx, () => m.deliver tx

end TronCourier.Manager
