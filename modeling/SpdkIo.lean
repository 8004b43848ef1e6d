import SpdkIo.Pkgconf.Proof.Coherent
import SpdkIo.Pkgconf.Proof.Region
import SpdkIo.Pkgconf.Proof.Clang
import SpdkIo.Pkgconf.Proof.Printed
import SpdkIo.Pkgconf.Proof.Link
import SpdkIo.Pkgconf.Proof.Build
import SpdkIo.Proof.Errno
import SpdkIo.Io.Proof.Buffers
import SpdkIo.Io.Proof.Completion
import SpdkIo.Io.Proof.Transfer
import SpdkIo.Io.Proof.BlockOn
import SpdkIo.Io.Proof.Data
import SpdkIo.Resources.Proof.Released
import SpdkIo.Msg.Proof.Delivery
import SpdkIo.Msg.Proof.BlockOn
import SpdkIo.Poller.Proof.Messages
import SpdkIo.Event.Proof.Closures
import SpdkIo.Event.Proof.Cores
import SpdkIo.Event.Proof.BlockOn
import SpdkIo.Env.Proof.Once
import SpdkIo.App.Proof.Callback
import SpdkIo.Thread.Proof.Library
import SpdkIo.Thread.Proof.Discipline
import SpdkIo.Thread.Local.Proof.Current
import SpdkIo.Thread.Local.Proof.Rollback
import SpdkIo.Thread.Local.Proof.App
import SpdkIo.Thread.Local.Proof.Refines
import SpdkIo.Nvme.Proof.Opts
import SpdkIo.Nvme.Proof.Connect
import SpdkIo.Nvme.Proof.Transport
import SpdkIo.Nvmf.Proof.Target
import SpdkIo.Nvmf.Proof.Subsystem
import SpdkIo.Nvmf.Proof.Registry
import SpdkIo.Nvmf.Proof.Setup
import SpdkIo.Handles.Proof.Parents
