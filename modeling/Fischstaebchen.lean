import Fischstaebchen.App.CreateUserTmpdirs
import Fischstaebchen.App.Mkdirp
import Fischstaebchen.App.SshFilter
import Fischstaebchen.App.Untar
import Fischstaebchen.App.Ztmpfs
import Fischstaebchen.DataTypes.Dynarray
import Fischstaebchen.DataTypes.Dynstr
import Fischstaebchen.Fs.MountAutoset
import Fischstaebchen.Fs.MountKeywords
import Fischstaebchen.Fs.MountOptsAlloc
import Fischstaebchen.Fs.MountOpts
import Fischstaebchen.Fs.ProcMisc
import Fischstaebchen.Fs.MajMin
import Fischstaebchen.App.Filescan
import Fischstaebchen.App.ReadProcCmdline
import Fischstaebchen.App.ReadProcEnviron
import Fischstaebchen.Misc.Message
import Fischstaebchen.Misc.RunCommand
import Fischstaebchen.Misc.Which
import Fischstaebchen.Fs.ProcessInfo
import Fischstaebchen.Fs.Umount
import Fischstaebchen.Initramfs.BindEntry
import Fischstaebchen.Initramfs.Init
import Fischstaebchen.Initramfs.RunFlags
import Fischstaebchen.Initramfs.Premount
import Fischstaebchen.Initramfs.Shell
import Fischstaebchen.Initramfs.UsrSource
import Fischstaebchen.Metash.IfBlocks
import Fischstaebchen.Metash.Independence
import Fischstaebchen.Metash.Scope
import Fischstaebchen.Metash.ParsedRun
import Fischstaebchen.Metash.Blind
import Fischstaebchen.Metash.Unselected
import Fischstaebchen.Net.MacAddr
import Fischstaebchen.Overlay.CanonicalUri
import Fischstaebchen.Overlay.CheckMount
import Fischstaebchen.Overlay.DirImport
import Fischstaebchen.Overlay.Envfile
import Fischstaebchen.Overlay.FspathNormalForm
import Fischstaebchen.Overlay.GenscriptArgs
import Fischstaebchen.Overlay.RemountStatus
import Fischstaebchen.Overlay.SfsRotate
import Fischstaebchen.Overlay.StagediveValue
import Fischstaebchen.Overlay.VerifyDigest
import Fischstaebchen.Strutil.Argsplit
import Fischstaebchen.Zram.AutoswapBounds
import Fischstaebchen.Zram.DiskSimple
import Fischstaebchen.Zram.TmpfsOwner
import Fischstaebchen.Zram.NextFree
import Fischstaebchen.Overlay.StagediveSetup
import Fischstaebchen.Overlay.StdMux
import Fischstaebchen.Overlay.UnionLayers
import Fischstaebchen.Overlay.UnionScript
