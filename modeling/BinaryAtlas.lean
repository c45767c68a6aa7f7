import BinaryAtlas.Session.Command
import BinaryAtlas.Proofs.ByteView
import BinaryAtlas.Proofs.Config
import BinaryAtlas.Proofs.Enclosure
import BinaryAtlas.Proofs.PortableExecutable.Aliasing
import BinaryAtlas.Proofs.PortableExecutable.Geometry
import BinaryAtlas.Proofs.PortableExecutable.HeaderRegion
import BinaryAtlas.Proofs.PortableExecutable.Overflow
import BinaryAtlas.Proofs.PortableExecutable.Settings
import BinaryAtlas.Proofs.Session.Announcement
import BinaryAtlas.Proofs.Session.ImageCreation
import BinaryAtlas.Proofs.Session.Layout
import BinaryAtlas.Proofs.Session.LiveIndex
import BinaryAtlas.Proofs.Session.Mutation
import BinaryAtlas.Proofs.Session.Nesting
import BinaryAtlas.Proofs.Session.OwnRecord
import BinaryAtlas.Proofs.Session.Reading
import BinaryAtlas.Proofs.Session.Refusal
import BinaryAtlas.Proofs.Session.Resolution
import BinaryAtlas.Proofs.Session.Restore
import BinaryAtlas.Proofs.Session.Restored
import BinaryAtlas.Proofs.Session.RestoredLayout
import BinaryAtlas.Proofs.Session.Shadowing
import BinaryAtlas.Proofs.Session.Spaces
import BinaryAtlas.Proofs.Session.Sweeping
import BinaryAtlas.Proofs.Session.Transfer
import BinaryAtlas.Proofs.Session.TypeSize
import BinaryAtlas.Proofs.Store.File
import BinaryAtlas.Proofs.Subscription
import BinaryAtlas.Proofs.Translation
import BinaryAtlas.Proofs.Verdict
