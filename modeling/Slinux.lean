import Slinux.Shell.Text
import Slinux.Shell.Glob
import Slinux.Shell.Regex
import Slinux.Shell.Script
import Slinux.Shell.Logic
import Slinux.Shell.Mirror
import Slinux.Disk.Name
import Slinux.Disk.Dump
import Slinux.Tools.Getpass
import Slinux.Build.Initramfs
import Slinux.Installer.Accounts
import Slinux.Installer.Bootloader
import Slinux.Unix.Files
import Slinux.Unix.Links
import Slinux.Installer.System
import Slinux.Installer.Effects
import Slinux.Installer.Script
import Slinux.Installer.Mounts
import Slinux.Installer.Signals
import Slinux.Installer.Smooth
import Slinux.Installer.Devices
import Slinux.Installer.Files
import Slinux.Installer.Target
import Slinux.Installer.Prompts
import Slinux.Installer.Guard
import Slinux.Installer.Window
import Slinux.Boot.Root
import Slinux.Boot.Switch
import Slinux.Num.Congruential
import Slinux.Tools.Cryptpw
import Slinux.Boot.Lookup
import Slinux.Installer.Passwords
import Slinux.Installer.Home
import Slinux.Installer.Groups
import Slinux.Installer.Medium
import Slinux.Installer.Search
import Slinux.Installer.Copies
import Slinux.Installer.Modes
import Slinux.Installer.Status
import Slinux.Installer.Course
import Slinux.Installer.Image
import Slinux.Installer.NewSystem
import Slinux.Installer.Unlinked
import Slinux.Installer.Secrets
import Slinux.Installer.Consent
import Slinux.Installer.Typed
import Slinux.InstallSh.Effects
import Slinux.InstallSh.Release
import Slinux.InstallSh.Typed
import Slinux.InstallSh.Nodes
import Slinux.Boot.Installed
