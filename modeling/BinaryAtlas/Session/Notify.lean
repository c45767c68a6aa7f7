import BinaryAtlas.Session.Basic

namespace BinaryAtlas.Session

def observe (s : Session) (tag : String) (kind : EventKind) (r : Ref) : Session :=
  match s.heap.get? r with
  | some o => s.write (.event tag kind r o.id o.classOf o.name)
  | none => s

def updateImage (s : Session) (r : Ref) (f : Image → Disk → Except Error Unit × Image × Disk) :
    Except Error Unit × Session :=
  match s.heap.image? r with
  | none => (.ok (), s)
  | some i =>
    let (answer, i, disk) := f i s.disk
    (answer, { s with heap := s.heap.setBody r (.image i), disk })

def flush (s : Session) (r : Ref) : Except Error Unit × Session := s.updateImage r Image.flush

def writeRaw (s : Session) (r : Ref) (file : Nat) (data : Bytes) : Except Error Unit × Session :=
  s.updateImage r fun i disk => ((i.writeRaw file data).1, (i.writeRaw file data).2, disk)

def patch (s : Session) (tag : String) (r : Ref) : Session :=
  match s.heap.id? r with
  | none => s
  | some id =>
    match s.fetch id .image with
    | (.error _, s) => s
    | (.ok image, s) =>
      let (flushed, s) := s.flush image
      let (written, s) := s.writeRaw image 0 [0x90]
      s.write (.patched tag (flushed.isOk && written.isOk))

def reactQuietly (kind : EventKind) (r : Ref) (s : Session) (subscription : Nat × Observer) :
    Session :=
  let (handle, observer) := subscription
  match observer.reaction with
  | .silent => s
  | .record => s.observe observer.tag kind r
  | .reap _ => s.observe observer.tag kind r
  | .once =>
    let s := s.observe observer.tag kind r
    if s.spent.contains handle then s
    else { s with spent := handle :: s.spent, chain := (s.chain.unsubscribe handle).2 }
  | .spawn =>
    let s := s.observe observer.tag kind r
    if s.spent.contains handle then s
    else
      { s with
        spent := handle :: s.spent
        chain := (s.chain.subscribe { tag := observer.tag ++ "+" }).2 }
  | .patch =>
    let s := s.observe observer.tag kind r
    if kind = .changed then s.patch observer.tag r else s

def notifyQuietly (s : Session) (kind : EventKind) (r : Ref) : Session :=
  Chain.deliver Session.chain (reactQuietly kind r) s

def unregister (s : Session) (id : HashId) : Except LookupError Ref × Session :=
  let (found, registry) := s.registry.remove s.live id
  let s := { s with registry }
  match found with
  | none => (.error (.notFound id), s)
  | some r => (.ok r, s.notifyQuietly .removed r)

def react (kind : EventKind) (r : Ref) (s : Session) (subscription : Nat × Observer) : Session :=
  match subscription.2.reaction, kind, s.heap.get? r with
  | .reap className, .added, some o =>
    let s := s.observe subscription.2.tag kind r
    if o.classOf.name = className then
      let (removed, s) := s.unregister o.id
      s.write (.reaped subscription.2.tag removed.isOk)
    else s
  | _, _, _ => reactQuietly kind r s subscription

def notify (s : Session) (kind : EventKind) (r : Ref) : Session :=
  Chain.deliver Session.chain (react kind r) s

def update (s : Session) (r : Ref) (f : Object → Object) : Session :=
  { s with heap := s.heap.modify r f }.notify .changed r

def updateBody (s : Session) (r : Ref) (b : Body) : Session :=
  s.update r fun o => { o with body := b }

end BinaryAtlas.Session
